import Offside.Proofs.Layout.Listing
import Offside.Proofs.Layout.Suites

/-!
# Filling in empty bodies

A layout that leaves empty bodies empty could differ by more than some lines from
one that does not: a body might be empty only because the bodies in it are left
empty. It does not, since both show the same listing, one of them without the
fillers. What is left to say is which entries the fillers are.

The headers and the fillers of a listing are its **frames**, and a suite has frames
of its own: its header, and `pass` below it if its body renders to nothing. The
frames of a listing are those of the suites in order (`frames_listingOf`), with one
and the same listing for both layouts. `Program.lines_render_filling` puts this
together for the lines of a program.

A simple statement may read `pass` as well. It is a phrase and no filler, and
stays where it is.
-/

namespace Offside

/-! ## The frames of a listing -/

section Frames

variable {width : Nat}

/-- **The headers and the fillers among the entries**, each with its line. -/
def frames (entries : List (Entry width)) : List (EntryKind × String) :=
  (entries.filter (·.kind ≠ .phrase)).map fun entry => (entry.kind, entry.line)

@[simp] theorem frames_append (entries others : List (Entry width)) :
    frames (entries ++ others) = frames entries ++ frames others := by
  unfold frames
  rw [List.filter_append, List.map_append]

@[simp] theorem frames_phrase (depth : Nat) (text : String) :
    frames (Entry.phrase width depth text) = [] := by
  unfold Entry.phrase
  split <;> rfl

/-- A simple statement is no frame, listed or not. -/
theorem frames_simple (depth : Nat) (text : String) :
    frames (if text = "" then [] else Entry.phrase width depth text) = [] := by
  split
  · rfl
  · exact frames_phrase depth text

end Frames

/-- What is filled in for a body at `depth`: `pass` if the body has no text. -/
def Body.fillers (o : Options) (depth : Nat) (body : Body) : List (EntryKind × String) :=
  if body.innerText o depth = "" then [(.filler, o.line depth "pass")] else []

/-- **What a suite adds around its statements**: its header, and what is filled
in below it. -/
def Suite.frames (o : Options) (s : Suite) : List (EntryKind × String) :=
  (.header, s.header) :: s.body.fillers o s.depth

section Suites

variable (o : Options)

mutual

/-- There are no suites in what is inline. -/
theorem Node.suites_eq_nil : ∀ (node : Node) (depth : Nat),
    node.isInline o.callArguments = true → node.suites o depth = []
  | .expression parts, _, h => suitesOf_eq_nil parts 0 h
  | .operator _, _, _ => rfl
  | .literal _, _, _ => rfl
  | .declaration _, _, _ => rfl
  | .token _, _, _ => rfl
  | .call _ args, _, h => keptSuites_eq_nil args h

/-- There are no suites in expressions that are inline. -/
theorem suitesOf_eq_nil : ∀ (nodes : List Node) (depth : Nat),
    areInline o.callArguments nodes = true → suitesOf o depth nodes = []
  | [], _, _ => rfl
  | node :: nodes, depth, h => by
    rw [areInline, Bool.and_eq_true] at h
    rw [suitesOf, Node.suites_eq_nil node depth h.1, suitesOf_eq_nil nodes depth h.2,
      List.nil_append]

/-- There are no suites in arguments that are inline as far as they are kept. -/
theorem keptSuites_eq_nil : ∀ args : List Node,
    keptAreInline o.callArguments args = true → keptSuites o args = []
  | [], _ => rfl
  | arg :: args, h => by
    rw [keptAreInline, Bool.and_eq_true] at h
    rw [keptSuites, keptSuites_eq_nil args h.2]
    split
    case isTrue hkept =>
      have harg : arg.isInline o.callArguments = true := by simpa [hkept] using h.1
      rw [Node.suites_eq_nil arg 0 harg, List.nil_append]
    case isFalse => rfl

end

/-- **The frames of a body** are its filler, if it has no text, and those of what
is in it. -/
theorem frames_filled {o : Options} {depth : Nat} {body : Body}
    {entries : List (Entry o.indentWidth)} (h : StartsShown entries)
    (htext : body.innerText o depth = o.stack (shown o.passEmptyBodies entries)) :
    frames (filled depth entries) = body.fillers o depth ++ frames entries := by
  unfold filled Body.fillers
  rw [htext]
  by_cases he : entries = []
  · subst he
    rfl
  · rw [if_neg (by simpa using he), if_neg (h.stack_shown_ne_empty o he), List.nil_append]

/-- The frames of the nodes of a body. -/
theorem frames_filled_listingOf (nodes : List Node) (depth : Nat)
    (h : ∀ phrase ∈ phrasesOf nodes, phrase.readsInline o.callArguments = true) :
    frames (filled depth (listingOf o.indentWidth o.callArguments depth nodes))
      = (Body.block nodes).fillers o depth
        ++ frames (listingOf o.indentWidth o.callArguments depth nodes) :=
  frames_filled (startsShown_listingOf _ nodes depth)
    (joinAlike_shown_renderEach o nodes depth h).intercalate_eq

/-- A condition that is inline is the text of its header. -/
theorem conditionText_eq {condition : Expression}
    (h : areInline o.callArguments condition = true) :
    conditionText o condition = expressionText o.callArguments condition := by
  unfold conditionText
  rw [value_renderEach_zero o condition h, expressionText]

mutual

/-- **The frames of a listing are those of the suites**, in order. -/
theorem Node.frames_listing : ∀ (node : Node) (depth : Nat),
    (∀ phrase ∈ node.phrases, phrase.readsInline o.callArguments = true) →
      frames (node.listing o.indentWidth o.callArguments depth)
        = (node.suites o depth).flatMap (Suite.frames o)
  | .sequence _ nodes, depth, h => frames_listingOf nodes depth h
  | .wrapper _ inner, depth, h => Node.frames_listing inner depth h
  | .declaration d, depth, _ => frames_phrase depth d.name
  | .assignment target op value, depth, h => by
    have hv : areInline o.callArguments value = true := h _ List.mem_cons_self
    rw [Node.suites, suitesOf_eq_nil o value 0 hv]
    exact frames_simple depth _
  | .expression parts, depth, h => by
    have hp : areInline o.callArguments parts = true := h _ List.mem_cons_self
    rw [Node.suites, suitesOf_eq_nil o parts 0 hp]
    exact frames_simple depth _
  | .operator _, depth, _ => frames_simple depth _
  | .literal _, depth, _ => frames_simple depth _
  | .conditional condition body next, depth, h => by
    rw [Node.phrases, List.forall_mem_cons, List.forall_mem_append] at h
    have hc : areInline o.callArguments condition = true := h.1
    -- the condition is inline: what it says is in the header, and no suite is in it
    have hbody := Body.frames_listing body (depth + 1) h.2.1
    have hnext := Continuation.frames_listing next depth h.2.2
    rw [Node.suites, suitesOf_eq_nil o condition 0 hc, conditionText_eq o hc, Node.listing,
      frames_append, hnext, List.nil_append, List.flatMap_append]
    exact congrArg (fun l => (EntryKind.header, _) :: l ++ _) hbody
  | .whileLoop condition body, depth, h => by
    rw [Node.phrases, List.forall_mem_cons] at h
    have hc : areInline o.callArguments condition = true := h.1
    have hbody := Body.frames_listing body (depth + 1) h.2
    rw [Node.suites, suitesOf_eq_nil o condition 0 hc, conditionText_eq o hc]
    exact congrArg (List.cons _) hbody
  | .method _ name args body, depth, h => by
    have hbody := frames_filled_listingOf o body (depth + 1) h
    rw [frames_listingOf body (depth + 1) h] at hbody
    rw [Node.suites, ← methodHeader_colon]
    exact congrArg (List.cons _) hbody
  | .returnExpr value, depth, h => by
    have hv : areInline o.callArguments value = true := h _ List.mem_cons_self
    rw [Node.suites, suitesOf_eq_nil o value 0 hv]
    exact frames_simple depth _
  | .call name args, depth, h => by
    have ha : keptAreInline o.callArguments args = true := h _ List.mem_cons_self
    rw [Node.suites, keptSuites_eq_nil o args ha]
    exact frames_simple depth _
  | .token _, depth, _ => frames_simple depth ""

/-- The frames of the listing of nodes are those of their suites. -/
theorem frames_listingOf : ∀ (nodes : List Node) (depth : Nat),
    (∀ phrase ∈ phrasesOf nodes, phrase.readsInline o.callArguments = true) →
      frames (listingOf o.indentWidth o.callArguments depth nodes)
        = (suitesOf o depth nodes).flatMap (Suite.frames o)
  | [], _, _ => rfl
  | node :: nodes, depth, h => by
    rw [phrasesOf, List.forall_mem_append] at h
    rw [listingOf, suitesOf, frames_append, List.flatMap_append,
      Node.frames_listing node depth h.1, frames_listingOf nodes depth h.2]

/-- The frames of the listing of a body are its filler and those of the suites
in it. -/
theorem Body.frames_listing : ∀ (body : Body) (depth : Nat),
    (∀ phrase ∈ body.phrases, phrase.readsInline o.callArguments = true) →
      frames (body.listing o.indentWidth o.callArguments depth)
        = body.fillers o depth ++ (body.suites o depth).flatMap (Suite.frames o)
  | .absent, _, _ => rfl
  | .block nodes, depth, h => by
    rw [Body.listing, frames_filled_listingOf o nodes depth h, frames_listingOf nodes depth h,
      Body.suites]
  | .single node, depth, h => by
    have htext : (Body.single node).innerText o depth = _ := node.value_render_eq_shown o depth h
    rw [Body.listing, frames_filled (node.startsShown_listing _ depth) htext,
      Node.frames_listing node depth h, Body.suites]

/-- The frames of the listing of the clauses after an `if` are those of their
suites. -/
theorem Continuation.frames_listing : ∀ (next : Continuation) (depth : Nat),
    (∀ phrase ∈ next.phrases, phrase.readsInline o.callArguments = true) →
      frames (next.listing o.indentWidth o.callArguments depth)
        = (next.suites o depth).flatMap (Suite.frames o)
  | .done, _, _ => rfl
  | .elif condition body next, depth, h => by
    rw [Continuation.phrases, List.forall_mem_cons, List.forall_mem_append] at h
    have hc : areInline o.callArguments condition = true := h.1
    have hbody := Body.frames_listing body (depth + 1) h.2.1
    have hnext := Continuation.frames_listing next depth h.2.2
    rw [Continuation.suites, suitesOf_eq_nil o condition 0 hc, conditionText_eq o hc,
      Continuation.listing, frames_append, hnext, List.nil_append, List.flatMap_append]
    exact congrArg (fun l => (EntryKind.header, _) :: l ++ _) hbody
  | .otherwise body, depth, h =>
    congrArg (List.cons _) (Body.frames_listing body (depth + 1) h)

end

end Suites

/-! ## Filling in empty bodies -/

/-- The same choices, but for whether empty bodies are filled in. -/
def Options.filling (o : Options) (pass : Bool) : Options := { o with passEmptyBodies := pass }

/-- **Leaving empty bodies empty takes exactly the fillers away.** Both layouts
show one listing, one of them all entries and the other all but the fillers. The
headers and fillers of the listing are those of the suites in order: for each suite
its header, and below it `pass` behind the indentation of the body if the body
renders to nothing, which it does in both layouts or in neither. -/
theorem Program.lines_render_filling (o : Options) (p : Program)
    (hstrings : ∀ s ∈ p.strings, Unbroken s)
    (hinline : ∀ phrase ∈ p.phrases, phrase.readsInline o.callArguments = true) :
    o.lineEnding.lines (p.render (o.filling true)).value
        = (p.listing o.indentWidth o.callArguments).map Entry.line
      ∧ o.lineEnding.lines (p.render (o.filling false)).value
        = ((p.listing o.indentWidth o.callArguments).filter (·.kind ≠ .filler)).map Entry.line
      ∧ ∀ pass : Bool, frames (p.listing o.indentWidth o.callArguments)
        = (p.suites (o.filling pass)).flatMap (Suite.frames (o.filling pass)) := by
  refine ⟨?_, p.lines_render (o.filling false) hstrings hinline,
    fun pass => frames_listingOf (o.filling pass) p.body 0 hinline⟩
  have hshown : shown true (p.listing o.indentWidth o.callArguments)
      = (p.listing o.indentWidth o.callArguments).map Entry.line :=
    congrArg (List.map Entry.line) (List.filter_eq_self.mpr fun _ _ => rfl)
  exact (p.lines_render (o.filling true) hstrings hinline).trans hshown

/-- A loop around a statement that reads `pass`, and a function with a condition
that has an empty body and an `else` around a declaration without a name. -/
def passLoop : Program :=
  ⟨[.whileLoop [.literal ["a"]] (.block [.literal ["pass"]]),
    .method "int" "f" []
      [.conditional [.literal ["b"]] .absent (.otherwise (.single (.declaration ⟨"int", ""⟩)))]]⟩

/-- A statement that reads `pass` is no filler, and a declaration without a name
fills its body. -/
theorem passLoop_lines_render_filling :
    (∀ s ∈ passLoop.strings, Unbroken s)
      ∧ (∀ phrase ∈ passLoop.phrases, phrase.readsInline .literals = true)
      ∧ LineEnding.crlf.lines (passLoop.render (Options.filling {} true)).value
        = ["while a:", "    pass", "def f():", "    if b:", "        pass", "    else:",
          "        "]
      ∧ LineEnding.crlf.lines (passLoop.render (Options.filling {} false)).value
        = ["while a:", "    pass", "def f():", "    if b:", "    else:", "        "] := by
  have hstrings : ∀ s ∈ passLoop.strings, Unbroken s := by decide
  have hinline : ∀ phrase ∈ passLoop.phrases, phrase.readsInline .literals = true := by decide
  obtain ⟨hon, hoff, -⟩ := Program.lines_render_filling {} passLoop hstrings hinline
  exact ⟨hstrings, hinline, hon.trans (by decide), hoff.trans (by decide)⟩

end Offside
