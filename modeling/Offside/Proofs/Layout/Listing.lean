import Offside.Proofs.Layout.Rows

/-!
# The listing of a layout

Whether a body is filled in with `pass` is decided by looking at its text, and
that text depends on whether the bodies further in were filled in. The **listing**
of a node (`Node.listing`) is put together without regard for that. Its entries
stand for lines: headers, phrases, which are simple statements, and the fillers of
bodies in which nothing else is listed.

A layout shows all entries of the listing, or all but the fillers (`shown`), and
`Node.value_render_eq_shown` says that it shows nothing else. No listing of nodes
starts with a filler (`StartsShown`), and so a body is without text exactly if
nothing is listed in it, whatever is shown of the fillers further in.

Rows (`Node.rows`) say where a line stands within its node and leave out lines of
nothing but indentation. Entries say where it stands in the whole layout, and so
they can tell whether a declaration without a name is a line, which it is where
lines are indented.
-/

namespace Offside

/-! ## Entries -/

/-- **What a line of a layout is.** -/
inductive EntryKind where
  /-- The header of a clause, a loop or a function. -/
  | header
  /-- A simple statement. -/
  | phrase
  /-- The statement that stands for a body without text. -/
  | filler
  deriving Repr, DecidableEq

/-- **An entry of a listing** with steps of `width` spaces: a line that is not
empty. -/
structure Entry (width : Nat) where
  /-- What the line is. -/
  kind : EntryKind
  /-- The levels of nesting. -/
  depth : Nat
  /-- The line without its indentation. -/
  text : String
  /-- There is indentation, or something behind it. -/
  nonblank : depth * width ≠ 0 ∨ text ≠ ""

namespace Entry

variable {width : Nat}

/-- **The line of an entry**, with its indentation. -/
def line (entry : Entry width) : String :=
  String.ofList (List.replicate (entry.depth * width) ' ') ++ entry.text

/-- No entry is an empty line. -/
theorem line_ne_empty (entry : Entry width) : entry.line ≠ "" := by
  intro h
  obtain ⟨hindent, htext⟩ := String.append_eq_empty_iff.mp h
  rcases entry.nonblank with hdepth | hne
  · have hlength := congrArg String.length hindent
    rw [String.length_ofList, List.length_replicate] at hlength
    exact hdepth hlength
  · exact hne htext

/-- **A header**: a text and a colon. -/
def header (width depth : Nat) (text : String) : Entry width :=
  ⟨.header, depth, text ++ ":", .inr (by simp)⟩

/-- **The filler** of a body at `depth`. -/
def filler (width depth : Nat) : Entry width := ⟨.filler, depth, "pass", .inr (by decide)⟩

/-- **A simple statement** is an entry, if its line would not be empty. -/
def phrase (width depth : Nat) (text : String) : List (Entry width) :=
  if h : depth * width ≠ 0 ∨ text ≠ "" then [⟨.phrase, depth, text, h⟩] else []

theorem kind_of_mem_phrase {depth : Nat} {text : String} :
    ∀ entry ∈ phrase width depth text, entry.kind = .phrase := by
  unfold phrase
  split
  · exact List.forall_mem_singleton.mpr rfl
  · exact List.forall_mem_nil _

end Entry

/-! ## Listings -/

/-- **The entries of a body** at `depth`, from those of what is in it. -/
def filled {width : Nat} (depth : Nat) (entries : List (Entry width)) : List (Entry width) :=
  if entries.isEmpty then [.filler width depth] else entries

mutual

/-- **The listing of a node in statement position at `depth`.** A simple statement
without a text is not listed, but a declaration is indented even then. -/
def Node.listing (width : Nat) (mode : CallArguments) (depth : Nat) : Node → List (Entry width)
  | .sequence _ nodes => listingOf width mode depth nodes
  | .wrapper _ inner => inner.listing width mode depth
  | .declaration d => Entry.phrase width depth d.name
  | .conditional condition body next =>
    .header width depth (conditionHeader mode "if " condition)
      :: body.listing width mode (depth + 1) ++ next.listing width mode depth
  | .whileLoop condition body =>
    .header width depth (conditionHeader mode "while " condition)
      :: body.listing width mode (depth + 1)
  | .method _ name args body =>
    .header width depth (methodHeader name args)
      :: filled (depth + 1) (listingOf width mode (depth + 1) body)
  | simple =>
    if simple.phraseText mode = "" then [] else Entry.phrase width depth (simple.phraseText mode)

/-- The listing of nodes in the same position. -/
def listingOf (width : Nat) (mode : CallArguments) (depth : Nat) :
    List Node → List (Entry width)
  | [] => []
  | node :: nodes => node.listing width mode depth ++ listingOf width mode depth nodes

/-- The listing of a body at `depth`. -/
def Body.listing (width : Nat) (mode : CallArguments) (depth : Nat) :
    Body → List (Entry width)
  | .absent => filled depth []
  | .block nodes => filled depth (listingOf width mode depth nodes)
  | .single node => filled depth (node.listing width mode depth)

/-- The listing of the clauses after an `if` at `depth`. -/
def Continuation.listing (width : Nat) (mode : CallArguments) (depth : Nat) :
    Continuation → List (Entry width)
  | .done => []
  | .elif condition body next =>
    .header width depth (conditionHeader mode "elif " condition)
      :: body.listing width mode (depth + 1) ++ next.listing width mode depth
  | .otherwise body => .header width depth "else" :: body.listing width mode (depth + 1)

end

/-- **The listing of a program.** -/
def Program.listing (width : Nat) (mode : CallArguments) (p : Program) : List (Entry width) :=
  listingOf width mode 0 p.body

/-! ## What is shown -/

section Shown

variable {width : Nat} (pass : Bool)

/-- **The lines that a layout shows of a listing**: all of them, or all but the
fillers. -/
def shown (entries : List (Entry width)) : List String :=
  (entries.filter fun entry => pass || entry.kind ≠ .filler).map Entry.line

@[simp] theorem shown_append (entries others : List (Entry width)) :
    shown pass (entries ++ others) = shown pass entries ++ shown pass others := by
  unfold shown
  rw [List.filter_append, List.map_append]

/-- What is no filler is shown. -/
theorem shown_cons {entry : Entry width} (h : entry.kind ≠ .filler)
    (entries : List (Entry width)) :
    shown pass (entry :: entries) = entry.line :: shown pass entries := by
  unfold shown
  rw [List.filter_cons_of_pos (by simp [h]), List.map_cons]

theorem ne_empty_of_mem_shown (entries : List (Entry width)) :
    ∀ line ∈ shown pass entries, line ≠ "" := by
  intro line hline
  obtain ⟨entry, -, rfl⟩ := List.mem_map.mp hline
  exact entry.line_ne_empty

/-- **A listing starts with an entry that is always shown**, if it has entries. -/
def StartsShown (entries : List (Entry width)) : Prop :=
  ∀ entry ∈ entries.head?, entry.kind ≠ .filler

theorem startsShown_nil : StartsShown ([] : List (Entry width)) :=
  fun _ h => absurd h (Option.not_mem_none _)

theorem StartsShown.append {entries others : List (Entry width)} (h : StartsShown entries)
    (h' : StartsShown others) : StartsShown (entries ++ others) := by
  cases entries with
  | nil => exact h'
  | cons entry entries => exact h

/-- Something is shown of such a listing, with or without the fillers. -/
theorem StartsShown.shown_ne_nil {entries : List (Entry width)} (h : StartsShown entries)
    (hne : entries ≠ []) : shown pass entries ≠ [] := by
  obtain ⟨entry, rest, rfl⟩ := List.exists_cons_of_ne_nil hne
  rw [shown_cons pass (h entry rfl)]
  exact List.cons_ne_nil _ _

theorem startsShown_header (depth : Nat) (text : String) (entries : List (Entry width)) :
    StartsShown (Entry.header width depth text :: entries) := by
  intro entry hentry
  rw [← Option.some.inj hentry]
  exact EntryKind.noConfusion

theorem startsShown_phrase (depth : Nat) (text : String) :
    StartsShown (Entry.phrase width depth text) := by
  intro entry hentry
  rw [Entry.kind_of_mem_phrase entry (List.mem_of_mem_head? hentry)]
  exact EntryKind.noConfusion

theorem startsShown_simple (depth : Nat) (text : String) :
    StartsShown (if text = "" then [] else Entry.phrase width depth text) := by
  split
  · exact startsShown_nil
  · exact startsShown_phrase depth text

mutual

/-- **No listing of a node starts with a filler.** -/
theorem Node.startsShown_listing (mode : CallArguments) : ∀ (node : Node) (depth : Nat),
    StartsShown (node.listing width mode depth)
  | .sequence _ nodes, depth => startsShown_listingOf mode nodes depth
  | .wrapper _ inner, depth => Node.startsShown_listing mode inner depth
  | .declaration d, depth => startsShown_phrase depth d.name
  | .conditional _ _ _, depth => startsShown_header depth _ _
  | .whileLoop _ _, depth => startsShown_header depth _ _
  | .method _ _ _ _, depth => startsShown_header depth _ _
  | .assignment _ _ _, depth => startsShown_simple depth _
  | .expression _, depth => startsShown_simple depth _
  | .operator _, depth => startsShown_simple depth _
  | .literal _, depth => startsShown_simple depth _
  | .returnExpr _, depth => startsShown_simple depth _
  | .call _ _, depth => startsShown_simple depth _
  | .token _, depth => startsShown_simple depth _

/-- No listing of nodes starts with a filler. -/
theorem startsShown_listingOf (mode : CallArguments) : ∀ (nodes : List Node) (depth : Nat),
    StartsShown (listingOf width mode depth nodes)
  | [], _ => startsShown_nil
  | node :: nodes, depth =>
    (Node.startsShown_listing mode node depth).append (startsShown_listingOf mode nodes depth)

end

end Shown

/-! ## Rendering shows the listing -/

section Render

variable (o : Options)

/-- A declaration is its line, or no line at all. -/
theorem Options.line_eq_stack_shown (pass : Bool) (depth : Nat) (text : String) :
    o.line depth text = o.stack (shown pass (Entry.phrase o.indentWidth depth text)) := by
  unfold Entry.phrase
  split
  case isTrue hshown =>
    rw [shown_cons pass EntryKind.noConfusion]
    exact String.intercalate_singleton.symm
  case isFalse hblank =>
    -- nothing is indented by nothing
    rw [not_or, Decidable.not_not, Decidable.not_not] at hblank
    rw [line, indent, hblank.1, hblank.2]
    rfl

/-- A simple statement is its line if it has a text. -/
theorem Options.place_eq_stack_shown (pass : Bool) (depth : Nat) (text : String) :
    o.place depth text
      = o.stack (shown pass
        (if text = "" then [] else Entry.phrase o.indentWidth depth text)) := by
  unfold place
  split
  · rfl
  · exact o.line_eq_stack_shown pass depth text

/-- A simple statement with a text is its line. -/
theorem Options.line_eq_stack_shown_of_ne (pass : Bool) (depth : Nat) {text : String}
    (h : text ≠ "") :
    o.line depth text
      = o.stack (shown pass
        (if text = "" then [] else Entry.phrase o.indentWidth depth text)) := by
  rw [if_neg h]
  exact o.line_eq_stack_shown pass depth text

/-- **What is listed has a text**, whether or not fillers are shown. -/
theorem StartsShown.stack_shown_ne_empty {entries : List (Entry o.indentWidth)}
    (h : StartsShown entries) (hne : entries ≠ []) :
    o.stack (shown o.passEmptyBodies entries) ≠ "" :=
  intercalate_ne_empty (h.shown_ne_nil _ hne) (ne_empty_of_mem_shown _ entries)

/-- **The lines under a header show the entries of the body**, whatever they are
joined with. -/
theorem Options.suite_joinAlike_shown (depth : Nat) {entries : List (Entry o.indentWidth)}
    (h : StartsShown entries) :
    JoinAlike o.lineEnding.text (o.suite depth (o.stack (shown o.passEmptyBodies entries)))
      (shown o.passEmptyBodies (filled depth entries)) := by
  -- a body is without text exactly if nothing is listed in it
  by_cases he : entries = []
  · subst he
    rw [suite, if_neg (by simp [stack, shown])]
    cases hpass : o.passEmptyBodies <;> exact JoinAlike.refl _
  · rw [suite, if_pos (h.stack_shown_ne_empty o he), filled, if_neg (by simpa using he)]
    exact JoinAlike.join (h.shown_ne_nil _ he)

mutual

/-- **The text of a node is its listing shown**, if what its phrases read is
inline. -/
theorem Node.value_render_eq_shown : ∀ (node : Node) (depth : Nat),
    (∀ phrase ∈ node.phrases, phrase.readsInline o.callArguments = true) →
      (node.render o depth).value
        = o.stack (shown o.passEmptyBodies (node.listing o.indentWidth o.callArguments depth))
  | .sequence _ nodes, depth, h => (joinAlike_shown_renderEach nodes depth h).intercalate_eq
  | .wrapper _ inner, depth, h => Node.value_render_eq_shown inner depth h
  | .declaration d, depth, _ => o.line_eq_stack_shown _ depth d.name
  | .assignment target op value, depth, h => by
    have hv : areInline o.callArguments value = true := h _ List.mem_cons_self
    simp only [Node.render, Logged.value_bind, Logged.value_pure,
      value_renderEach_zero o value hv]
    exact o.line_eq_stack_shown_of_ne _ depth (by simp)
  | .expression parts, depth, h => by
    have hp : areInline o.callArguments parts = true := h _ List.mem_cons_self
    simp only [Node.render, Logged.value_bind, Logged.value_pure,
      value_renderEach_zero o parts hp]
    exact o.place_eq_stack_shown _ depth _
  | .operator tokens, depth, _ => o.place_eq_stack_shown _ depth _
  | .literal tokens, depth, _ => o.place_eq_stack_shown _ depth _
  | .conditional condition body next, depth, h => by
    rw [Node.phrases, List.forall_mem_cons, List.forall_mem_append] at h
    have hc : areInline o.callArguments condition = true := h.1
    simp only [Node.render, Logged.value_bind, Logged.value_pure,
      value_renderEach_zero o condition hc]
    rw [Node.listing, shown_append, shown_cons _ EntryKind.noConfusion]
    exact (((joinAlike_shown_body body (depth + 1) h.2.1).cons _).append
      (joinAlike_shown_continuation next depth h.2.2)).intercalate_eq
  | .whileLoop condition body, depth, h => by
    rw [Node.phrases, List.forall_mem_cons] at h
    have hc : areInline o.callArguments condition = true := h.1
    simp only [Node.render, Logged.value_bind, Logged.value_pure,
      value_renderEach_zero o condition hc]
    rw [Node.listing, shown_cons _ EntryKind.noConfusion]
    exact ((joinAlike_shown_body body (depth + 1) h.2).cons _).intercalate_eq
  | .method _ name args body, depth, h => by
    have hb : o.stackNonEmpty (renderEach o (depth + 1) body).value = _ :=
      (joinAlike_shown_renderEach body (depth + 1) h).intercalate_eq
    simp only [Node.render, Logged.value_bind, Logged.value_pure, hb]
    rw [← methodHeader_colon, Node.listing, shown_cons _ EntryKind.noConfusion]
    exact ((o.suite_joinAlike_shown (depth + 1)
      (startsShown_listingOf _ body _)).cons _).intercalate_eq
  | .returnExpr value, depth, h => by
    have hv : areInline o.callArguments value = true := h _ List.mem_cons_self
    simp only [Node.render, Logged.value_bind, Logged.value_pure,
      value_renderEach_zero o value hv]
    refine o.line_eq_stack_shown_of_ne _ depth ?_
    split <;> simp
  | .call name args, depth, h => by
    have ha : keptAreInline o.callArguments args = true := h _ List.mem_cons_self
    simp only [Node.render, Logged.value_bind, Logged.value_pure,
      value_renderArguments o name args ha]
    exact o.place_eq_stack_shown _ depth _
  | .token _, depth, _ => o.place_eq_stack_shown _ depth ""

/-- The nodes of a sequence, without the empty ones, and their listing. -/
theorem joinAlike_shown_renderEach : ∀ (nodes : List Node) (depth : Nat),
    (∀ phrase ∈ phrasesOf nodes, phrase.readsInline o.callArguments = true) →
      JoinAlike o.lineEnding.text ((renderEach o depth nodes).value.filter (· ≠ ""))
        (shown o.passEmptyBodies (listingOf o.indentWidth o.callArguments depth nodes))
  | [], _, _ => JoinAlike.refl []
  | node :: nodes, depth, h => by
    rw [phrasesOf, List.forall_mem_append] at h
    rw [listingOf, shown_append]
    exact JoinAlike.filter_cons (Node.value_render_eq_shown node depth h.1)
      (ne_empty_of_mem_shown _ _) (joinAlike_shown_renderEach nodes depth h.2)

/-- The lines under a header and the listing of the body. -/
theorem joinAlike_shown_body : ∀ (body : Body) (depth : Nat),
    (∀ phrase ∈ body.phrases, phrase.readsInline o.callArguments = true) →
      JoinAlike o.lineEnding.text (body.render o depth).value
        (shown o.passEmptyBodies (body.listing o.indentWidth o.callArguments depth))
  | .absent, depth, _ => o.suite_joinAlike_shown depth startsShown_nil
  | .block nodes, depth, h => by
    have hn : o.stackNonEmpty (renderEach o depth nodes).value = _ :=
      (joinAlike_shown_renderEach nodes depth h).intercalate_eq
    simp only [Body.render, Logged.value_bind, Logged.value_pure, hn]
    exact o.suite_joinAlike_shown depth (startsShown_listingOf _ nodes depth)
  | .single node, depth, h => by
    simp only [Body.render, Logged.value_bind, Logged.value_pure,
      Node.value_render_eq_shown node depth h]
    exact o.suite_joinAlike_shown depth (node.startsShown_listing _ depth)

/-- The clauses after an `if` and their listing. -/
theorem joinAlike_shown_continuation : ∀ (next : Continuation) (depth : Nat),
    (∀ phrase ∈ next.phrases, phrase.readsInline o.callArguments = true) →
      JoinAlike o.lineEnding.text (next.render o depth).value
        (shown o.passEmptyBodies (next.listing o.indentWidth o.callArguments depth))
  | .done, _, _ => JoinAlike.refl []
  | .elif condition body next, depth, h => by
    rw [Continuation.phrases, List.forall_mem_cons, List.forall_mem_append] at h
    have hc : areInline o.callArguments condition = true := h.1
    simp only [Continuation.render, Logged.value_bind, Logged.value_pure,
      value_renderEach_zero o condition hc]
    rw [Continuation.listing, shown_append, shown_cons _ EntryKind.noConfusion]
    exact ((joinAlike_shown_body body (depth + 1) h.2.1).cons _).append
      (joinAlike_shown_continuation next depth h.2.2)
  | .otherwise body, depth, h => by
    rw [Continuation.listing, shown_cons _ EntryKind.noConfusion]
    exact (joinAlike_shown_body body (depth + 1) h).cons _

end

end Render

/-! ## What is listed -/

namespace LineLaw

variable {mode : CallArguments} {Word : String → Prop} {Phrase : Node → Prop}
  {Line : String → Prop} {width : Nat}

/-- What holds of a simple statement holds of its entry. -/
theorem phraseEntry {depth : Nat} {text : String} (h : Line text) :
    ∀ entry ∈ Entry.phrase width depth text, Line entry.text := by
  unfold Entry.phrase
  split
  · exact List.forall_mem_singleton.mpr h
  · exact List.forall_mem_nil _

/-- What holds of a simple statement holds of its entry, if it has one. -/
theorem simpleEntry {depth : Nat} {text : String} (h : Line text) :
    ∀ entry ∈ (if text = "" then [] else Entry.phrase width depth text), Line entry.text := by
  split
  · exact List.forall_mem_nil _
  · exact phraseEntry h

/-- What holds of the entries in a body holds of the entries of the body. -/
theorem filled (law : LineLaw mode Word Phrase Line) (depth : Nat) {entries : List (Entry width)}
    (h : ∀ entry ∈ entries, Line entry.text) :
    ∀ entry ∈ Offside.filled depth entries, Line entry.text := by
  unfold Offside.filled
  split
  · exact List.forall_mem_singleton.mpr law.pass
  · exact h

mutual

/-- **What holds of lines holds of the listing of a node.** -/
theorem listing (law : LineLaw mode Word Phrase Line) : ∀ (node : Node) (depth : Nat),
    (∀ s ∈ node.strings, Word s) → (∀ phrase ∈ node.phrases, Phrase phrase) →
      ∀ entry ∈ node.listing width mode depth, Line entry.text
  | .sequence _ nodes, depth, hs, hp => listingOf law nodes depth hs hp
  | .wrapper _ inner, depth, hs, hp => listing law inner depth hs hp
  | .conditional condition body next, depth, hs, hp => by
    simp only [Node.strings, Node.phrases, List.forall_mem_append, List.forall_mem_cons]
      at hs hp
    rw [Node.listing, List.cons_append, List.forall_mem_cons, List.forall_mem_append]
    exact ⟨law.condition "if " (by simp) condition hs.1.1,
      bodyListing law body (depth + 1) hs.1.2 hp.2.1, nextListing law next depth hs.2 hp.2.2⟩
  | .whileLoop condition body, depth, hs, hp => by
    simp only [Node.strings, Node.phrases, List.forall_mem_append, List.forall_mem_cons]
      at hs hp
    rw [Node.listing, List.forall_mem_cons]
    exact ⟨law.condition "while " (by simp) condition hs.1,
      bodyListing law body (depth + 1) hs.2 hp.2⟩
  | .method _ name args body, depth, hs, hp => by
    simp only [Node.strings, List.cons_append, List.forall_mem_append, List.forall_mem_cons]
      at hs
    rw [Node.listing, List.forall_mem_cons]
    exact ⟨law.method name args hs.2.1 hs.2.2.1,
      filled law (depth + 1) (listingOf law body (depth + 1) hs.2.2.2 hp)⟩
  | .declaration d, _, hs, hp => phraseEntry (law.phrase _ hs (hp _ List.mem_cons_self))
  | .assignment _ _ _, _, hs, hp => simpleEntry (law.phrase _ hs (hp _ List.mem_cons_self))
  | .expression _, _, hs, hp => simpleEntry (law.phrase _ hs (hp _ List.mem_cons_self))
  | .operator _, _, hs, hp => simpleEntry (law.phrase _ hs (hp _ List.mem_cons_self))
  | .literal _, _, hs, hp => simpleEntry (law.phrase _ hs (hp _ List.mem_cons_self))
  | .returnExpr _, _, hs, hp => simpleEntry (law.phrase _ hs (hp _ List.mem_cons_self))
  | .call _ _, _, hs, hp => simpleEntry (law.phrase _ hs (hp _ List.mem_cons_self))
  | .token _, _, hs, hp => simpleEntry (law.phrase _ hs (hp _ List.mem_cons_self))

/-- What holds of lines holds of the listing of nodes. -/
theorem listingOf (law : LineLaw mode Word Phrase Line) : ∀ (nodes : List Node) (depth : Nat),
    (∀ s ∈ stringsOf nodes, Word s) → (∀ phrase ∈ phrasesOf nodes, Phrase phrase) →
      ∀ entry ∈ Offside.listingOf width mode depth nodes, Line entry.text
  | [], _, _, _ => List.forall_mem_nil _
  | node :: nodes, depth, hs, hp => by
    simp only [stringsOf, phrasesOf, List.forall_mem_append] at hs hp
    rw [Offside.listingOf, List.forall_mem_append]
    exact ⟨listing law node depth hs.1 hp.1, listingOf law nodes depth hs.2 hp.2⟩

/-- What holds of lines holds of the listing of a body. -/
theorem bodyListing (law : LineLaw mode Word Phrase Line) : ∀ (body : Body) (depth : Nat),
    (∀ s ∈ body.strings, Word s) → (∀ phrase ∈ body.phrases, Phrase phrase) →
      ∀ entry ∈ body.listing width mode depth, Line entry.text
  | .absent, depth, _, _ => filled law depth (List.forall_mem_nil _)
  | .block nodes, depth, hs, hp => filled law depth (listingOf law nodes depth hs hp)
  | .single node, depth, hs, hp => filled law depth (listing law node depth hs hp)

/-- What holds of lines holds of the listing of the clauses after an `if`. -/
theorem nextListing (law : LineLaw mode Word Phrase Line) :
    ∀ (next : Continuation) (depth : Nat),
    (∀ s ∈ next.strings, Word s) → (∀ phrase ∈ next.phrases, Phrase phrase) →
      ∀ entry ∈ next.listing width mode depth, Line entry.text
  | .done, _, _, _ => List.forall_mem_nil _
  | .elif condition body next, depth, hs, hp => by
    simp only [Continuation.strings, Continuation.phrases, List.forall_mem_append,
      List.forall_mem_cons] at hs hp
    rw [Continuation.listing, List.cons_append, List.forall_mem_cons, List.forall_mem_append]
    exact ⟨law.condition "elif " (by simp) condition hs.1.1,
      bodyListing law body (depth + 1) hs.1.2 hp.2.1, nextListing law next depth hs.2 hp.2.2⟩
  | .otherwise body, depth, hs, hp => by
    rw [Continuation.listing, List.forall_mem_cons]
    exact ⟨law.otherwise, bodyListing law body (depth + 1) hs hp⟩

end

end LineLaw

/-- The line of an unbroken text is unbroken. -/
theorem Entry.unbroken_line {width : Nat} (entry : Entry width) (h : Unbroken entry.text) :
    Unbroken entry.line :=
  h.line { indentWidth := width } entry.depth

/-- **The lines of a program are its listing shown**, if its strings are unbroken
and what its phrases read is inline. -/
theorem Program.lines_render (o : Options) (p : Program) (hstrings : ∀ s ∈ p.strings, Unbroken s)
    (hinline : ∀ phrase ∈ p.phrases, phrase.readsInline o.callArguments = true) :
    o.lineEnding.lines (p.render o).value
      = shown o.passEmptyBodies (p.listing o.indentWidth o.callArguments) := by
  have htext : (p.render o).value = _ :=
    (joinAlike_shown_renderEach o p.body 0 hinline).intercalate_eq
  have hunbroken : ∀ entry ∈ p.listing o.indentWidth o.callArguments, Unbroken entry.text :=
    (unbrokenLaw o.callArguments).listingOf p.body 0 hstrings (fun _ _ => trivial)
  rw [htext]
  refine o.lineEnding.lines_intercalate (fun line hline => ?_) (ne_empty_of_mem_shown _ _)
  obtain ⟨entry, hentry, rfl⟩ := List.mem_map.mp hline
  exact entry.unbroken_line (hunbroken entry (List.mem_filter.mp hentry).1)

end Offside
