import Offside.Proofs.Layout.Listing
import Offside.Proofs.Layout.Wording

/-!
# What the choice of arguments changes

Which arguments a call keeps is a choice of the layout. An argument that is kept by
one layout opens an expression of its own there, of which the other layout shows
nothing, and so the two could differ by more than arguments: a statement might have a
text in one of them only, and with it a body, and with that a line `pass`.

They do not. The **sketch** of a program (`Program.sketch`) is its listing with
wordings in place of texts, and there is one sketch for all layouts. The listing is
the sketch written out (`listingOf_eq_map`), so that the choice comes in where lists of
arguments are written, and nowhere else. These lists are those of the calls that are
rendered with literals kept, one for each of them (`Node.calls_sketch`).
-/

namespace Offside

open Wording

variable {mode : CallArguments}

/-! ## Sketches -/

/-- **A line that is not written out yet**, in a layout with steps of `width` spaces. -/
structure Draft (width : Nat) where
  /-- What the line is. -/
  kind : EntryKind
  /-- The levels of nesting. -/
  depth : Nat
  /-- The line without its indentation. -/
  wording : Wording
  /-- There is indentation, or something behind it. -/
  nonblank : depth * width ≠ 0 ∨ wording.isSolid = true
  /-- A filler reads `pass`. -/
  wording_of_filler : kind = .filler → wording = [.fixed "pass"]

namespace Draft

variable {width : Nat}

/-- **A draft written out** in a layout that keeps these arguments. -/
def entry (mode : CallArguments) (draft : Draft width) : Entry width :=
  ⟨draft.kind, draft.depth, draft.wording.text mode, draft.nonblank.imp id text_ne_empty⟩

/-- **The line of a draft**, with its indentation. -/
def line (mode : CallArguments) (draft : Draft width) : String := (draft.entry mode).line

/-- A header: a wording and a colon. -/
def header (width depth : Nat) (w : Wording) : Draft width :=
  ⟨.header, depth, w ++ [.fixed ":"], .inr (by rw [isSolid_append]; simp [isSolid, Piece.isSolid]),
    EntryKind.noConfusion⟩

/-- The filler of a body at `depth`. -/
def filler (width depth : Nat) : Draft width :=
  ⟨.filler, depth, [.fixed "pass"], .inr rfl, fun _ => rfl⟩

/-- A simple statement is a line, if it would not be empty. -/
def phrase (width depth : Nat) (w : Wording) : List (Draft width) :=
  if h : depth * width ≠ 0 ∨ w.isSolid = true then [⟨.phrase, depth, w, h, EntryKind.noConfusion⟩]
  else []

/-- A header is written out as the header of what its wording is a wording of. -/
theorem entry_header {w : Wording} {text : String} (h : Words mode w text) (depth : Nat) :
    (header width depth w).entry mode = .header width depth text := by
  have htext : Wording.text mode (w ++ [.fixed ":"]) = text ++ ":" :=
    (h.append (.fixed ":")).text_eq
  simp only [entry, header, Entry.header, htext]

theorem map_entry_phrase {w : Wording} {text : String} (h : Words mode w text) (depth : Nat) :
    (phrase width depth w).map (entry mode) = Entry.phrase width depth text := by
  have hlisted : (depth * width ≠ 0 ∨ w.isSolid = true) ↔ (depth * width ≠ 0 ∨ text ≠ "") := by
    rw [h.isSolid_iff]
  unfold phrase Entry.phrase
  by_cases hd : depth * width ≠ 0 ∨ w.isSolid = true
  · rw [dif_pos hd, dif_pos (hlisted.mp hd)]
    simp only [List.map_cons, List.map_nil, entry, h.text_eq]
  · rw [dif_neg hd, dif_neg (mt hlisted.mpr hd)]
    rfl

/-- A simple statement is a line in all layouts or in none. -/
theorem map_entry_simple {w : Wording} {text : String} (h : Words mode w text) (depth : Nat) :
    (if w.isSolid then phrase width depth w else []).map (entry mode)
      = if text = "" then [] else Entry.phrase width depth text := by
  by_cases ht : text = ""
  · rw [if_pos ht, if_neg (by rw [h.isSolid_iff]; exact not_not.mpr ht)]
    rfl
  · rw [if_neg ht, if_pos (h.isSolid_of_ne ht), map_entry_phrase h]

end Draft

/-- The drafts of a body at `depth`, from those of what is in it. -/
def sketched {width : Nat} (depth : Nat) (drafts : List (Draft width)) : List (Draft width) :=
  if drafts.isEmpty then [.filler width depth] else drafts

theorem map_entry_sketched {width : Nat} (depth : Nat) (drafts : List (Draft width)) :
    (sketched depth drafts).map (Draft.entry mode) = filled depth (drafts.map (Draft.entry mode)) := by
  unfold sketched filled
  cases drafts <;> rfl

mutual

/-- **The sketch of a node in statement position at `depth`.** -/
def Node.sketch (width depth : Nat) : Node → List (Draft width)
  | .sequence _ nodes => sketchOf width depth nodes
  | .wrapper _ inner => inner.sketch width depth
  | .declaration d => Draft.phrase width depth [.fixed d.name]
  | .conditional condition body next =>
    .header width depth (conditionWording "if " condition)
      :: body.sketch width (depth + 1) ++ next.sketch width depth
  | .whileLoop condition body =>
    .header width depth (conditionWording "while " condition) :: body.sketch width (depth + 1)
  | .method _ name args body =>
    .header width depth [.fixed (methodHeader name args)]
      :: sketched (depth + 1) (sketchOf width (depth + 1) body)
  | simple =>
    if simple.phraseWording.isSolid then Draft.phrase width depth simple.phraseWording else []

/-- The sketch of nodes in the same position. -/
def sketchOf (width depth : Nat) : List Node → List (Draft width)
  | [] => []
  | node :: nodes => node.sketch width depth ++ sketchOf width depth nodes

/-- The sketch of a body at `depth`. -/
def Body.sketch (width depth : Nat) : Body → List (Draft width)
  | .absent => sketched depth []
  | .block nodes => sketched depth (sketchOf width depth nodes)
  | .single node => sketched depth (node.sketch width depth)

/-- The sketch of the clauses after an `if` at `depth`. -/
def Continuation.sketch (width depth : Nat) : Continuation → List (Draft width)
  | .done => []
  | .elif condition body next =>
    .header width depth (conditionWording "elif " condition)
      :: body.sketch width (depth + 1) ++ next.sketch width depth
  | .otherwise body => .header width depth [.fixed "else"] :: body.sketch width (depth + 1)

end

/-- **The sketch of a program**: its lines before a layout chooses which arguments it
keeps. -/
def Program.sketch (width : Nat) (p : Program) : List (Draft width) := sketchOf width 0 p.body

section Listing

variable (mode : CallArguments) {width : Nat}

mutual

/-- **The listing of a node is its sketch written out**, in every layout. -/
theorem Node.listing_eq_map : ∀ (node : Node) (depth : Nat),
    node.listing width mode depth = (node.sketch width depth).map (Draft.entry mode)
  | .sequence _ nodes, depth => listingOf_eq_map nodes depth
  | .wrapper _ inner, depth => Node.listing_eq_map inner depth
  | .declaration d, depth => (Draft.map_entry_phrase (.fixed d.name) depth).symm
  | .conditional condition body next, depth => by
    rw [Node.listing, Node.sketch, List.cons_append, List.cons_append, List.map_cons,
      List.map_append, Draft.entry_header (words_conditionWording "if " condition),
      Body.listing_eq_map body, Continuation.listing_eq_map next]
  | .whileLoop condition body, depth => by
    rw [Node.listing, Node.sketch, List.map_cons,
      Draft.entry_header (words_conditionWording "while " condition), Body.listing_eq_map body]
  | .method _ name args body, depth => by
    rw [Node.listing, Node.sketch, List.map_cons, Draft.entry_header (.fixed _),
      map_entry_sketched, listingOf_eq_map body]
  | .assignment _ _ _, depth => (Draft.map_entry_simple (Node.words_phraseWording _) depth).symm
  | .expression _, depth => (Draft.map_entry_simple (Node.words_phraseWording _) depth).symm
  | .operator _, depth => (Draft.map_entry_simple (Node.words_phraseWording _) depth).symm
  | .literal _, depth => (Draft.map_entry_simple (Node.words_phraseWording _) depth).symm
  | .returnExpr _, depth => (Draft.map_entry_simple (Node.words_phraseWording _) depth).symm
  | .call _ _, depth => (Draft.map_entry_simple (Node.words_phraseWording _) depth).symm
  | .token _, depth => (Draft.map_entry_simple (Node.words_phraseWording _) depth).symm

/-- The listing of nodes is their sketch written out. -/
theorem listingOf_eq_map : ∀ (nodes : List Node) (depth : Nat),
    listingOf width mode depth nodes = (sketchOf width depth nodes).map (Draft.entry mode)
  | [], _ => rfl
  | node :: nodes, depth => by
    rw [listingOf, sketchOf, List.map_append, Node.listing_eq_map node, listingOf_eq_map nodes]

/-- The listing of a body is its sketch written out. -/
theorem Body.listing_eq_map : ∀ (body : Body) (depth : Nat),
    body.listing width mode depth = (body.sketch width depth).map (Draft.entry mode)
  | .absent, _ => rfl
  | .block nodes, depth => by
    rw [Body.listing, Body.sketch, map_entry_sketched, listingOf_eq_map nodes]
  | .single node, depth => by
    rw [Body.listing, Body.sketch, map_entry_sketched, Node.listing_eq_map node]

/-- The listing of the clauses after an `if` is their sketch written out. -/
theorem Continuation.listing_eq_map : ∀ (next : Continuation) (depth : Nat),
    next.listing width mode depth = (next.sketch width depth).map (Draft.entry mode)
  | .done, _ => rfl
  | .elif condition body next, depth => by
    rw [Continuation.listing, Continuation.sketch, List.cons_append, List.cons_append,
      List.map_cons, List.map_append,
      Draft.entry_header (words_conditionWording "elif " condition), Body.listing_eq_map body,
      Continuation.listing_eq_map next]
  | .otherwise body, depth => by
    rw [Continuation.listing, Continuation.sketch, List.map_cons, Draft.entry_header (.fixed _),
      Body.listing_eq_map body]

end

end Listing

/-- What is shown of a sketch that is written out. -/
theorem shown_map_entry {width : Nat} (pass : Bool) (drafts : List (Draft width)) :
    shown pass (drafts.map (Draft.entry mode))
      = (drafts.filter fun d => pass || d.kind ≠ .filler).map (Draft.line mode) := by
  rw [shown, List.filter_map, List.map_map]
  rfl

/-! ## The calls in a sketch -/

/-- **What drafts say**, one after the other. -/
def wordingIn {width : Nat} (drafts : List (Draft width)) : Wording :=
  drafts.flatMap fun d => d.wording

section Calls

variable {width : Nat} {w : Wording} {names others : List String}

theorem wordingIn_append (drafts more : List (Draft width)) :
    wordingIn (drafts ++ more) = wordingIn drafts ++ wordingIn more := List.flatMap_append

theorem calls_append {drafts more : List (Draft width)} (h : Calls (wordingIn drafts) names)
    (h' : Calls (wordingIn more) others) :
    Calls (wordingIn (drafts ++ more)) (names ++ others) := by
  rw [wordingIn_append]
  exact h.append h'

/-- A header in front. -/
theorem calls_header (h : Calls w names) (depth : Nat) {drafts : List (Draft width)}
    (hd : Calls (wordingIn drafts) others) :
    Calls (wordingIn (.header width depth w :: drafts)) (names ++ others) := by
  have hheader := (h.append (.fixed ":")).append hd
  rw [List.append_nil] at hheader
  exact hheader

theorem calls_phrase (h : Calls w names) (depth : Nat) :
    Calls (wordingIn (Draft.phrase width depth w)) names := by
  unfold Draft.phrase
  by_cases hd : depth * width ≠ 0 ∨ w.isSolid = true
  · rw [dif_pos hd, wordingIn, List.flatMap_singleton]
    exact h
  · rw [dif_neg hd, h.eq_nil_of_not_isSolid (mt .inr hd)]
    exact .nil

/-- A statement that is no line has no calls. -/
theorem calls_simple (h : Calls w names) (depth : Nat) :
    Calls (wordingIn (if w.isSolid then Draft.phrase width depth w else [])) names := by
  by_cases hs : w.isSolid = true
  · rw [if_pos hs]
    exact calls_phrase h depth
  · rw [if_neg hs, h.eq_nil_of_not_isSolid hs]
    exact .nil

/-- A filler has no calls. -/
theorem calls_sketched (depth : Nat) {drafts : List (Draft width)}
    (h : Calls (wordingIn drafts) names) : Calls (wordingIn (sketched depth drafts)) names := by
  unfold sketched
  cases drafts with
  | nil =>
    obtain rfl : [] = names := h.callees_eq
    exact .fixed "pass"
  | cons draft drafts => exact h

mutual

/-- **The calls in the sketch of a node** are those that are rendered if literals alone
are kept: each is in one line, and in one place there. -/
theorem Node.calls_sketch : ∀ (node : Node) (depth : Nat),
    (∀ phrase ∈ node.phrases, phrase.readsInline .expressions = true) →
      Calls (wordingIn (node.sketch width depth)) (renderedCallees .literals node.callSites)
  | .sequence _ nodes, depth, h => calls_sketchOf nodes depth h
  | .wrapper _ inner, depth, h => Node.calls_sketch inner depth h
  | .declaration _, depth, _ => calls_phrase (.fixed _) depth
  | .conditional condition body next, depth, h => by
    rw [Node.phrases, List.forall_mem_cons, List.forall_mem_append] at h
    rw [Node.sketch, Node.callSites, renderedCallees_append, renderedCallees_append,
      List.append_assoc]
    exact calls_header (calls_conditionWording "if " h.1) depth
      (calls_append (Body.calls_sketch body (depth + 1) h.2.1)
        (Continuation.calls_sketch next depth h.2.2))
  | .whileLoop condition body, depth, h => by
    rw [Node.phrases, List.forall_mem_cons] at h
    rw [Node.sketch, Node.callSites, renderedCallees_append]
    exact calls_header (calls_conditionWording "while " h.1) depth
      (Body.calls_sketch body (depth + 1) h.2)
  | .method _ _ args body, depth, h => by
    rw [Node.sketch, Node.callSites, renderedCallees_append, renderedCallees_inside rfl]
    exact calls_header (.fixed _) depth
      (calls_sketched (depth + 1) (calls_sketchOf body (depth + 1) h))
  | .assignment _ _ _, depth, h =>
    calls_simple ((calls_expressionWording _ (h _ List.mem_cons_self)).cons_fixed _) depth
  | .returnExpr _, depth, h =>
    calls_simple (calls_phraseWording_returnExpr (h _ List.mem_cons_self)) depth
  | .expression parts, depth, h =>
    calls_simple (calls_expressionWording parts (h _ List.mem_cons_self)) depth
  | .call name args, depth, h =>
    calls_simple (Node.calls_wording (.call name args) (h _ List.mem_cons_self)) depth
  | .operator tokens, depth, _ => calls_simple (Node.calls_wording (.operator tokens) rfl) depth
  | .literal tokens, depth, _ => calls_simple (Node.calls_wording (.literal tokens) rfl) depth
  | .token text, depth, _ => calls_simple (Node.calls_wording (.token text) rfl) depth

/-- The calls in the sketch of nodes. -/
theorem calls_sketchOf : ∀ (nodes : List Node) (depth : Nat),
    (∀ phrase ∈ phrasesOf nodes, phrase.readsInline .expressions = true) →
      Calls (wordingIn (sketchOf width depth nodes))
        (renderedCallees .literals (callSitesOf nodes))
  | [], _, _ => .nil
  | node :: nodes, depth, h => by
    rw [phrasesOf, List.forall_mem_append] at h
    rw [sketchOf, callSitesOf, renderedCallees_append]
    exact calls_append (Node.calls_sketch node depth h.1) (calls_sketchOf nodes depth h.2)

/-- The calls in the sketch of a body. -/
theorem Body.calls_sketch : ∀ (body : Body) (depth : Nat),
    (∀ phrase ∈ body.phrases, phrase.readsInline .expressions = true) →
      Calls (wordingIn (body.sketch width depth)) (renderedCallees .literals body.callSites)
  | .absent, depth, _ => calls_sketched depth .nil
  | .block nodes, depth, h => calls_sketched depth (calls_sketchOf nodes depth h)
  | .single node, depth, h => calls_sketched depth (Node.calls_sketch node depth h)

/-- The calls in the sketch of the clauses after an `if`. -/
theorem Continuation.calls_sketch : ∀ (next : Continuation) (depth : Nat),
    (∀ phrase ∈ next.phrases, phrase.readsInline .expressions = true) →
      Calls (wordingIn (next.sketch width depth)) (renderedCallees .literals next.callSites)
  | .done, _, _ => .nil
  | .elif condition body next, depth, h => by
    rw [Continuation.phrases, List.forall_mem_cons, List.forall_mem_append] at h
    rw [Continuation.sketch, Continuation.callSites, renderedCallees_append,
      renderedCallees_append, List.append_assoc]
    exact calls_header (calls_conditionWording "elif " h.1) depth
      (calls_append (Body.calls_sketch body (depth + 1) h.2.1)
        (Continuation.calls_sketch next depth h.2.2))
  | .otherwise body, depth, h =>
    calls_header (.fixed "else") depth (Body.calls_sketch body (depth + 1) h)

end

end Calls

/-! ## The same layout with other arguments -/

/-- The same choices, but for which arguments calls keep. -/
def Options.keeping (o : Options) (mode : CallArguments) : Options :=
  { o with callArguments := mode }

/-- **The texts of the arguments that a call writes.** -/
def Options.argumentTexts (o : Options) (callee : String) (args : List Node) : List String :=
  (renderArguments o callee args).value.filter (· ≠ "")

/-- Whether an argument is an expression or a call, of which it is a choice whether
it is kept. -/
def Node.isCompound : Node → Bool
  | .expression _ | .call _ _ => true
  | _ => false

section Modes

/-- There is no choice about any other argument. -/
theorem fate_eq_of_isCompound_eq_false {arg : Node} (h : arg.isCompound = false) :
    CallArguments.fate .expressions arg = CallArguments.fate .literals arg := by
  cases arg with
  | expression _ | call _ _ => cases h
  | _ => rfl

/-- An argument that every layout keeps is a literal. -/
theorem exists_eq_literal_of_kept {arg : Node} (h : CallArguments.fate .literals arg = .kept) :
    ∃ tokens, arg = .literal tokens := by
  cases arg with
  | literal tokens => exact ⟨tokens, rfl⟩
  | _ => cases h

/-- **Without expressions and calls among them the arguments that are kept are the
same.** -/
theorem keptTexts_eq {args : List Node} (h : ∀ arg ∈ args, arg.isCompound = false) :
    keptTexts .expressions args = keptTexts .literals args := by
  induction args with
  | nil => rfl
  | cons arg args ih =>
    rw [List.forall_mem_cons] at h
    rw [keptTexts, keptTexts, ih h.2, fate_eq_of_isCompound_eq_false h.1]
    by_cases hkept : CallArguments.fate .literals arg = .kept
    · obtain ⟨tokens, rfl⟩ := exists_eq_literal_of_kept hkept
      rfl
    · rw [if_neg hkept, if_neg hkept]

/-- Lines without expressions and calls as arguments are the same. -/
theorem Draft.line_eq {width : Nat} {d : Draft width}
    (h : ∀ callee args, .arguments callee args ∈ d.wording →
      ∀ arg ∈ args, arg.isCompound = false) :
    d.line .expressions = d.line .literals := by
  have htext : d.wording.text .expressions = d.wording.text .literals := by
    refine congrArg String.join (List.map_congr_left fun piece hpiece => ?_)
    cases piece with
    | fixed text => rfl
    | arguments callee args =>
      exact congrArg (joinNonEmpty ", ") (keptTexts_eq (h callee args hpiece))
  unfold line Entry.line
  exact congrArg (_ ++ ·) htext

mutual

/-- **What is inline with expressions kept is inline with literals kept.** -/
theorem Node.isInline_literals : ∀ node : Node,
    node.isInline .expressions = true → node.isInline .literals = true
  | .expression parts, h => areInline_literals parts h
  | .call _ args, _ => keptAreInline_literals args
  | .operator _, _ | .literal _, _ | .declaration _, _ | .token _, _ => rfl

theorem areInline_literals : ∀ nodes : List Node,
    areInline .expressions nodes = true → areInline .literals nodes = true
  | [], _ => rfl
  | node :: nodes, h => by
    rw [areInline, Bool.and_eq_true] at h ⊢
    exact ⟨node.isInline_literals h.1, areInline_literals nodes h.2⟩

/-- The literals among arguments are inline. -/
theorem keptAreInline_literals : ∀ args : List Node, keptAreInline .literals args = true
  | [] => rfl
  | arg :: args => by
    rw [keptAreInline, keptAreInline_literals args, Bool.and_true]
    by_cases hkept : CallArguments.fate .literals arg = .kept
    · obtain ⟨tokens, rfl⟩ := exists_eq_literal_of_kept hkept
      rfl
    · rw [decide_eq_true hkept, Bool.true_or]

end

theorem Node.readsInline_literals {node : Node} (h : node.readsInline .expressions = true) :
    node.readsInline .literals = true := by
  cases node with
  | assignment _ _ value | returnExpr value | expression value => exact areInline_literals value h
  | call _ args => exact keptAreInline_literals args
  | _ => rfl

/-- **A call that keeps expressions writes more arguments**, with those that it writes
anyway among them in their order. -/
theorem sublist_renderArguments (o : Options) (callee : String) : ∀ args : List Node,
    (renderArguments (o.keeping .literals) callee args).value.Sublist
      (renderArguments (o.keeping .expressions) callee args).value
  | [] => .slnil
  | arg :: args => by
    have ih := sublist_renderArguments o callee args
    rw [renderArguments, renderArguments]
    cases arg with
    | literal tokens =>
      simp only [Options.keeping, CallArguments.fate, Logged.value_bind, Logged.value_pure,
        Node.render, Options.place_zero]
      exact ih.cons_cons _
    | expression _ | call _ _ =>
      simp only [Options.keeping, CallArguments.fate, reduceCtorEq, if_false, if_true,
        Logged.value_bind, Logged.value_pure]
      exact ih.cons _
    | _ => exact ih

/-- **An argument that is dropped with expressions kept is no expression and no call.** -/
theorem exists_argument_of_isHeard {s : CallSite} (h : s.isHeard .expressions false = true) :
    ∃ arg, s.argument? = some arg ∧ arg.isCompound = false := by
  rw [CallSite.isHeard, Bool.and_eq_true] at h
  cases hs : s.argument? with
  | none =>
    rw [hs] at h
    cases h.2
  | some arg =>
    refine ⟨arg, rfl, ?_⟩
    rw [hs] at h
    cases arg with
    | expression _ | call _ _ => cases h.2
    | _ => rfl

end Modes

/-- **The choice of arguments changes lists of arguments and nothing else.** All
layouts that differ in this choice alone write out one sketch:

* their lines are the drafts of the sketch, without the fillers if empty bodies are left
  empty, so that they are equally many and the fillers stand in the same places;
* in each of them a line is the same indentation and the same wording, in which only
  lists of arguments are written out by the choice, and a filler reads `pass`;
* a line without an expression or a call among the arguments of its calls is the same;
* the calls in the sketch are those that are rendered with literals kept, and where a
  list of arguments stands, the texts of the arguments that the call writes are written;
* the texts that a call writes with literals kept are among those it writes with
  expressions kept, in their order;
* with expressions kept, the events are those of arguments that are dropped, and none of
  these is an expression or a call. -/
theorem Program.lines_render_keeping (o : Options) (p : Program)
    (hstrings : ∀ s ∈ p.strings, Unbroken s)
    (hinline : ∀ phrase ∈ p.phrases, phrase.readsInline .expressions = true) :
    (∀ mode, o.lineEnding.lines (p.render (o.keeping mode)).value
        = ((p.sketch o.indentWidth).filter fun d => o.passEmptyBodies || d.kind ≠ .filler).map
          (Draft.line mode))
      ∧ (∀ d ∈ p.sketch o.indentWidth,
        (∀ mode, d.line mode = o.indent d.depth ++ d.wording.text mode)
          ∧ (d.kind = .filler → ∀ mode, d.line mode = o.line d.depth "pass")
          ∧ ((∀ callee args, .arguments callee args ∈ d.wording →
              ∀ arg ∈ args, arg.isCompound = false) →
            d.line .expressions = d.line .literals))
      ∧ (wordingIn (p.sketch o.indentWidth)).callees
        = renderedCallees .literals (callSitesOf p.body)
      ∧ (∀ callee args, .arguments callee args ∈ wordingIn (p.sketch o.indentWidth) → ∀ mode,
        (Piece.arguments callee args).text mode
          = ", ".intercalate ((o.keeping mode).argumentTexts callee args))
      ∧ (∀ callee args, ((o.keeping .literals).argumentTexts callee args).Sublist
          ((o.keeping .expressions).argumentTexts callee args))
      ∧ (p.render (o.keeping .expressions)).events
        = ((callSitesOf p.body).filter (·.isHeard .expressions false)).map
          (fun s => .droppedArgument s.callee)
      ∧ ∀ s ∈ callSitesOf p.body, s.isHeard .expressions false = true →
        ∃ arg, s.argument? = some arg ∧ arg.isCompound = false := by
  have hcalls : Calls (wordingIn (p.sketch o.indentWidth))
      (renderedCallees .literals (callSitesOf p.body)) := calls_sketchOf p.body 0 hinline
  refine ⟨fun mode => ?_, fun d _ => ⟨fun _ => rfl, fun hd mode => ?_, Draft.line_eq⟩,
    hcalls.callees_eq, fun callee args hmem mode => ?_,
    fun callee args => (sublist_renderArguments o callee args).filter _, ?_,
    fun s _ => exists_argument_of_isHeard⟩
  · have hmode : ∀ phrase ∈ p.phrases, phrase.readsInline mode = true := by
      cases mode with
      | expressions => exact hinline
      | literals => exact fun phrase hphrase => Node.readsInline_literals (hinline phrase hphrase)
    have hlines := p.lines_render (o.keeping mode) hstrings hmode
    rw [Program.listing, listingOf_eq_map, shown_map_entry] at hlines
    exact hlines
  · have htext : d.wording.text mode = "pass" := by
      rw [d.wording_of_filler hd, Wording.text_cons, Wording.text_nil, String.append_empty,
        Piece.text]
    exact congrArg (o.indent d.depth ++ ·) htext
  · have hkept : keptAreInline (o.keeping mode).callArguments args = true := by
      cases mode with
      | expressions => exact hcalls.inline_of_mem callee args hmem
      | literals => exact keptAreInline_literals args
    rw [Piece.text, Options.argumentTexts, value_renderArguments (o.keeping mode) callee args hkept]
    rfl
  · rw [Program.render, Logged.events_bind, Logged.events_pure, List.append_nil,
      events_renderEach]
    rfl

/-- A loop without a body whose condition calls with a call within an expression as an
argument, a literal, and a call of which one argument is a declaration. -/
def nestedCalls : Program :=
  ⟨[.whileLoop [.call "f" [.literal ["1"], .token ",",
      .expression [.call "g" [.literal ["2"]], .operator ["+"], .literal ["3"]]]] .absent,
    .literal ["x"],
    .wrapper .statement (.call "h" [.declaration ⟨"int", "y"⟩, .call "k" []])]⟩

/-- The arguments differ, the loop is filled in either way, and the literal stays. -/
theorem nestedCalls_lines_render_keeping :
    (∀ s ∈ nestedCalls.strings, Unbroken s)
      ∧ (∀ phrase ∈ nestedCalls.phrases, phrase.readsInline .expressions = true)
      ∧ LineEnding.crlf.lines (nestedCalls.render (Options.keeping {} .literals)).value
        = ["while f(1):", "    pass", "x", "h()"]
      ∧ LineEnding.crlf.lines (nestedCalls.render (Options.keeping {} .expressions)).value
        = ["while f(1, g(2) + 3):", "    pass", "x", "h(k())"]
      ∧ (nestedCalls.render (Options.keeping {} .expressions)).events
        = [.droppedArgument "h"] := by
  have hstrings : ∀ s ∈ nestedCalls.strings, Unbroken s := by decide
  have hinline : ∀ phrase ∈ nestedCalls.phrases, phrase.readsInline .expressions = true := by decide
  obtain ⟨hlines, -, -, -, -, hevents, -⟩ :=
    Program.lines_render_keeping {} nestedCalls hstrings hinline
  exact ⟨hstrings, hinline, (hlines .literals).trans (by decide +kernel),
    (hlines .expressions).trans (by decide +kernel), hevents.trans (by decide +kernel)⟩

end Offside
