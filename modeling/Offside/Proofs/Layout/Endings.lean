import Mathlib.Data.List.Chain
import Offside.Proofs.Layout.Rows

/-!
# Line endings

A layout can be made with one line ending or with another, and the lines are
the same. This holds of every program, also of one with statements inside its
expressions, for which there are no rows: such a statement brings line endings
into the middle of a line, and what stands beside it in the expression is
continued on its last line.

A layout is therefore looked at as a text **for every line ending**, and the
property that is carried through is that one list of lines makes all of these
texts (`SameLines`). It is kept by what a layout does with texts: put one
behind the other (`SameLines.append`), ask whether there is any
(`SameLines.ite`), join them on a line (`SameLinesEach.join`) and put them one
below the other (`Stacks.stack`). No line is ever empty, and so the same
question always has the same answer, whatever the ending.

`linesAgree_render` says what follows of the texts: which lines they have, and
that no line is blank.
-/

namespace Offside

/-! ## Texts with the same lines -/

/-- **What stands on a line**: a text that is not empty and not broken. -/
structure IsLine (line : String) : Prop where
  /-- There are no blank lines. -/
  ne_empty : line ≠ ""
  /-- A line has no line ending in it. -/
  unbroken : Unbroken line

/-- **These are the lines of a text, whatever the line ending.** -/
structure HasLines (text : LineEnding → String) (lines : List String) : Prop where
  /-- Each of them is a line. -/
  isLine : ∀ line ∈ lines, IsLine line
  /-- The text is these lines one below the other. -/
  eq_intercalate : ∀ e, text e = e.text.intercalate lines

/-- **The same lines with every line ending.** -/
def SameLines (text : LineEnding → String) : Prop := ∃ lines, HasLines text lines

namespace HasLines

variable {text more : LineEnding → String} {lines others : List String}

/-- A text is empty if it has no lines, and that does not depend on the ending. -/
theorem eq_empty_iff (h : HasLines text lines) (e : LineEnding) : text e = "" ↔ lines = [] := by
  rw [h.eq_intercalate e]
  constructor
  · intro he
    by_contra hne
    exact intercalate_ne_empty hne (fun line hline => (h.isLine line hline).ne_empty) he
  · rintro rfl
    exact String.intercalate_nil

end HasLines

/-- **Lines behind lines**: the first line of the second text goes on where the
last line of the first text stops. -/
def glue : List String → List String → List String
  | [], others => others
  | [last], first :: rest => (last ++ first) :: rest
  | line :: lines, others => line :: glue lines others

theorem intercalate_glue (separator : String) : ∀ lines others : List String,
    separator.intercalate (glue lines others)
      = separator.intercalate lines ++ separator.intercalate others
  | [], others => by
    rw [glue, String.intercalate_nil, String.empty_append]
  | [last], [] => by
    rw [glue, glue, String.intercalate_nil, String.append_empty]
    exact nofun
  | [last], [first] => by
    simp only [glue, String.intercalate_singleton]
  | [last], first :: next :: rest => by
    simp only [glue, String.intercalate_singleton, String.intercalate_cons_cons,
      String.append_assoc]
  | line :: next :: lines, others => by
    have ih := intercalate_glue separator (next :: lines) others
    have hne : glue (next :: lines) others ≠ [] := by
      cases lines <;> cases others <;> simp [glue]
    obtain ⟨first, rest, hfirst⟩ := List.exists_cons_of_ne_nil hne
    rw [glue, hfirst, String.intercalate_cons_cons, ← hfirst, ih, String.intercalate_cons_cons]
    · simp only [String.append_assoc]
    · exact nofun

/-- Lines glued to lines are lines. -/
theorem isLine_of_mem_glue : ∀ {lines others : List String}, (∀ line ∈ lines, IsLine line) →
    (∀ line ∈ others, IsLine line) → ∀ line ∈ glue lines others, IsLine line
  | [], _, _, ho => ho
  | [last], [], hl, _ => hl
  | [last], first :: rest, hl, ho => by
    rw [List.forall_mem_cons] at ho
    have hlast : IsLine last := hl last List.mem_cons_self
    rw [glue, List.forall_mem_cons]
    refine ⟨⟨fun he => ?_, unbroken_append.mpr ⟨hlast.unbroken, ho.1.unbroken⟩⟩, ho.2⟩
    exact hlast.ne_empty (String.append_eq_empty_iff.mp he).1
  | line :: next :: lines, others, hl, ho => by
    rw [List.forall_mem_cons] at hl
    rw [glue, List.forall_mem_cons]
    · exact ⟨hl.1, isLine_of_mem_glue hl.2 ho⟩
    · exact nofun

namespace SameLines

variable {text more other : LineEnding → String}

/-- A text that no ending is in. -/
theorem of_unbroken {line : String} (h : Unbroken line) : SameLines (fun _ => line) := by
  by_cases he : line = ""
  · refine ⟨[], List.forall_mem_nil _, fun e => ?_⟩
    rw [he, String.intercalate_nil]
  · refine ⟨[line], List.forall_mem_singleton.mpr ⟨he, h⟩, fun e => ?_⟩
    rw [String.intercalate_singleton]

/-- **A text behind a text.** -/
theorem append (h : SameLines text) (h' : SameLines more) :
    SameLines (fun e => text e ++ more e) := by
  obtain ⟨lines, hlines⟩ := h
  obtain ⟨others, hothers⟩ := h'
  refine ⟨glue lines others, isLine_of_mem_glue hlines.isLine hothers.isLine, fun e => ?_⟩
  rw [intercalate_glue, hlines.eq_intercalate e, hothers.eq_intercalate e]

/-- **A question for an empty text** has the same answer with every ending. -/
theorem ite (h : SameLines text) (hempty : SameLines more) (hne : SameLines other) :
    SameLines (fun e => if text e = "" then more e else other e) := by
  obtain ⟨lines, hlines⟩ := h
  by_cases hl : lines = []
  · have he : ∀ e, text e = "" := fun e => (hlines.eq_empty_iff e).mpr hl
    simpa only [he, if_true] using hempty
  · have he : ∀ e, text e ≠ "" := fun e => mt (hlines.eq_empty_iff e).mp hl
    simpa only [he, if_false] using hne

/-- A text behind indentation. -/
theorem line (h : SameLines text) (o : Options) (depth : Nat) :
    SameLines (fun e => o.line depth (text e)) := by
  have hindent : Unbroken (o.indent depth) := by
    have hline : Unbroken (o.line depth "") := unbroken_empty.line o depth
    rwa [Options.line, String.append_empty] at hline
  exact (of_unbroken hindent).append h

/-- A text in statement position. -/
theorem place (h : SameLines text) (o : Options) (depth : Nat) :
    SameLines (fun e => o.place depth (text e)) :=
  h.ite (of_unbroken unbroken_empty) (h.line o depth)

end SameLines

/-! ## Texts on a line and texts one below the other -/

/-- **Texts, each with the same lines** with every line ending. -/
inductive SameLinesEach : (LineEnding → List String) → Prop where
  /-- No texts. -/
  | nil : SameLinesEach (fun _ => [])
  /-- One more text. -/
  | cons {text : LineEnding → String} {texts : LineEnding → List String} :
    SameLines text → SameLinesEach texts → SameLinesEach (fun e => text e :: texts e)

/-- **A join on a line.** -/
theorem SameLinesEach.join {texts : LineEnding → List String} (h : SameLinesEach texts)
    {separator : String} (hs : Unbroken separator) :
    SameLines (fun e => joinNonEmpty separator (texts e)) := by
  induction h with
  | nil => exact SameLines.of_unbroken unbroken_empty
  | cons htext _ ih =>
    simp only [joinNonEmpty_cons]
    exact htext.ite ih (ih.ite htext ((htext.append (.of_unbroken hs)).append ih))

/-- **Texts that stack**: one below the other they have the same lines with
every line ending, and so they have among other texts. -/
def Stacks (texts : LineEnding → List String) : Prop :=
  ∃ lines : List String, (∀ line ∈ lines, IsLine line)
    ∧ ∀ e : LineEnding, JoinAlike e.text (texts e) lines

namespace Stacks

variable {text : LineEnding → String} {texts others : LineEnding → List String}

theorem nil : Stacks (fun _ => []) := ⟨[], List.forall_mem_nil _, fun _ => .refl []⟩

/-- A text that is not empty. -/
theorem singleton (h : SameLines text) (hne : ∀ e, text e ≠ "") : Stacks (fun e => [text e]) := by
  obtain ⟨lines, hlines⟩ := h
  refine ⟨lines, hlines.isLine, fun e => ?_⟩
  show JoinAlike e.text [text e] lines
  rw [hlines.eq_intercalate e]
  exact JoinAlike.join (mt (hlines.eq_empty_iff e).mpr (hne e))

theorem append (h : Stacks texts) (h' : Stacks others) : Stacks (fun e => texts e ++ others e) := by
  obtain ⟨lines, hl, hlines⟩ := h
  obtain ⟨lines', hl', hlines'⟩ := h'
  exact ⟨lines ++ lines', List.forall_mem_append.mpr ⟨hl, hl'⟩,
    fun e => (hlines e).append (hlines' e)⟩

/-- **Texts one below the other.** -/
theorem stack (h : Stacks texts) : SameLines (fun e => e.text.intercalate (texts e)) := by
  obtain ⟨lines, hl, hlines⟩ := h
  exact ⟨lines, hl, fun e => (hlines e).intercalate_eq⟩

/-- Texts one below the other, without the empty ones. -/
theorem of_sameLinesEach (h : SameLinesEach texts) :
    Stacks (fun e => (texts e).filter (· ≠ "")) := by
  induction h with
  | nil => exact nil
  | cons htext _ ih =>
    obtain ⟨lines, hlines⟩ := htext
    obtain ⟨rest, hr, hrest⟩ := ih
    refine ⟨lines ++ rest, List.forall_mem_append.mpr ⟨hlines.isLine, hr⟩, fun e => ?_⟩
    exact JoinAlike.filter_cons (hlines.eq_intercalate e)
      (fun line hline => (hlines.isLine line hline).ne_empty) (hrest e)

/-- **The lines under a header.** -/
theorem suite (h : SameLines text) (o : Options) (depth : Nat) :
    Stacks (fun e => o.suite depth (text e)) := by
  obtain ⟨lines, hlines⟩ := h
  by_cases hl : lines = []
  · have he : ∀ e, text e = "" := fun e => (hlines.eq_empty_iff e).mpr hl
    have hpass : Unbroken (o.line depth "pass") := Unbroken.line o depth (by decide)
    have hne : o.line depth "pass" ≠ "" := o.line_ne_empty depth (by decide)
    simp only [Options.suite, he, ne_eq, not_true_eq_false, if_false]
    cases o.passEmptyBodies with
    | false => exact nil
    | true => exact singleton (.of_unbroken hpass) (fun _ => hne)
  · have he : ∀ e, text e ≠ "" := fun e => mt (hlines.eq_empty_iff e).mp hl
    simp only [Options.suite, he, ne_eq, not_false_eq_true, if_true]
    exact singleton ⟨lines, hlines⟩ he

end Stacks

/-! ## Rendering with one ending or another -/

/-- Options with another line ending. -/
def Options.endingIn (o : Options) (e : LineEnding) : Options := { o with lineEnding := e }

section Render

variable (o : Options)

/-- A header is a line with text. -/
theorem stacks_header (depth : Nat) {before after : String} {text : LineEnding → String}
    (h : SameLines text) (hb : Unbroken before) (ha : Unbroken after) (hne : after ≠ "") :
    Stacks (fun e => [o.line depth (before ++ text e ++ after)]) := by
  have hline := (((SameLines.of_unbroken hb).append h).append (.of_unbroken ha)).line o depth
  exact Stacks.singleton hline (fun e => o.line_ne_empty depth (by simp [hne]))

/-- The header of a clause or a loop is a line with text. -/
theorem stacks_conditionHeader (depth : Nat) {keyword : String} (hk : Unbroken keyword)
    {texts : LineEnding → List String} (h : SameLinesEach texts) :
    Stacks (fun e => [o.line depth (keyword ++ joinNonEmpty " " (texts e) ++ ":")]) :=
  stacks_header o depth (h.join (by decide)) hk (by decide) (by decide)

mutual

/-- **A node is rendered in the same lines with every line ending**, if its
strings are unbroken. -/
theorem Node.sameLines_render : ∀ (node : Node) (depth : Nat),
    (∀ s ∈ node.strings, Unbroken s) →
      SameLines (fun e => (node.render (o.endingIn e) depth).value)
  | .sequence _ nodes, depth, h =>
    (Stacks.of_sameLinesEach (sameLinesEach_renderEach nodes depth h)).stack
  | .wrapper _ inner, depth, h => Node.sameLines_render inner depth h
  | .declaration d, depth, h => by
    have hname : Unbroken d.name := h _ (List.mem_cons_of_mem _ List.mem_cons_self)
    exact (SameLines.of_unbroken hname).line o depth
  | .assignment target op value, depth, h => by
    simp only [Node.strings, List.forall_mem_append, List.forall_mem_cons] at h
    have hvalue := (sameLinesEach_renderEach value 0 h.2.2).join (show Unbroken " " by decide)
    have hop : Unbroken (target.boundName ++ " " ++ op ++ " ") := by
      simp only [unbroken_append]
      exact ⟨⟨⟨h.1 _ target.boundName_mem_strings, by decide⟩, h.2.1⟩, by decide⟩
    exact ((SameLines.of_unbroken hop).append hvalue).line o depth
  | .expression parts, depth, h =>
    ((sameLinesEach_renderEach parts 0 h).join (by decide)).place o depth
  | .operator tokens, depth, h =>
    (SameLines.of_unbroken (Unbroken.joinNonEmpty (by decide) h)).place o depth
  | .literal tokens, depth, h =>
    (SameLines.of_unbroken (Unbroken.joinNonEmpty (by decide) h)).place o depth
  | .conditional condition body next, depth, h => by
    simp only [Node.strings, List.forall_mem_append] at h
    have hcondition := sameLinesEach_renderEach condition 0 h.1.1
    exact (((stacks_conditionHeader o depth (by decide) hcondition).append
      (Body.stacks_render body (depth + 1) h.1.2)).append
        (Continuation.stacks_render next depth h.2)).stack
  | .whileLoop condition body, depth, h => by
    simp only [Node.strings, List.forall_mem_append] at h
    have hcondition := sameLinesEach_renderEach condition 0 h.1
    exact ((stacks_conditionHeader o depth (by decide) hcondition).append
      (Body.stacks_render body (depth + 1) h.2)).stack
  | .method _ name args body, depth, h => by
    simp only [Node.strings, List.cons_append, List.forall_mem_append, List.forall_mem_cons] at h
    have htext := (Stacks.of_sameLinesEach
      (sameLinesEach_renderEach body (depth + 1) h.2.2.2)).stack
    have hname : Unbroken ("def " ++ name ++ "(") := by
      simp only [unbroken_append]
      exact ⟨⟨by decide, h.2.1⟩, by decide⟩
    have hparameters : Unbroken (", ".intercalate (parameterNames args)) :=
      Unbroken.intercalate (by decide) (unbroken_parameterNames h.2.2.1)
    exact ((stacks_header o depth (.of_unbroken hparameters) hname (by decide)
      (by decide)).append (Stacks.suite htext o (depth + 1))).stack
  | .returnExpr value, depth, h => by
    have hvalue := (sameLinesEach_renderEach value 0 h).join (show Unbroken " " by decide)
    exact (hvalue.ite (.of_unbroken (by decide))
      ((SameLines.of_unbroken (by decide)).append hvalue)).line o depth
  | .call name args, depth, h => by
    rw [Node.strings, List.forall_mem_cons] at h
    have hargs :=
      (sameLinesEach_renderArguments name args h.2).join (show Unbroken ", " by decide)
    have hname : Unbroken (name ++ "(") := unbroken_append.mpr ⟨h.1, by decide⟩
    exact (((SameLines.of_unbroken hname).append hargs).append
      (.of_unbroken (by decide))).place o depth
  | .token _, _, _ => SameLines.of_unbroken unbroken_empty

/-- Each of some nodes is rendered in the same lines. -/
theorem sameLinesEach_renderEach : ∀ (nodes : List Node) (depth : Nat),
    (∀ s ∈ stringsOf nodes, Unbroken s) →
      SameLinesEach (fun e => (renderEach (o.endingIn e) depth nodes).value)
  | [], _, _ => .nil
  | node :: nodes, depth, h => by
    rw [stringsOf, List.forall_mem_append] at h
    exact .cons (Node.sameLines_render node depth h.1) (sameLinesEach_renderEach nodes depth h.2)

/-- Each argument that is kept is rendered in the same lines. -/
theorem sameLinesEach_renderArguments (callee : String) : ∀ args : List Node,
    (∀ s ∈ stringsOf args, Unbroken s) →
      SameLinesEach (fun e => (renderArguments (o.endingIn e) callee args).value)
  | [], _ => .nil
  | arg :: args, h => by
    rw [stringsOf, List.forall_mem_append] at h
    have ih := sameLinesEach_renderArguments callee args h.2
    have hmode : ∀ e, (o.endingIn e).callArguments = o.callArguments := fun _ => rfl
    simp only [renderArguments, hmode]
    cases o.callArguments.fate arg with
    | kept => exact .cons (Node.sameLines_render arg 0 h.1) ih
    | skipped => exact ih
    | dropped => exact ih

/-- The lines under a header are the same. -/
theorem Body.stacks_render : ∀ (body : Body) (depth : Nat),
    (∀ s ∈ body.strings, Unbroken s) → Stacks (fun e => (body.render (o.endingIn e) depth).value)
  | .absent, depth, _ => Stacks.suite (.of_unbroken unbroken_empty) o depth
  | .block nodes, depth, h =>
    Stacks.suite (Stacks.of_sameLinesEach (sameLinesEach_renderEach nodes depth h)).stack o depth
  | .single node, depth, h => Stacks.suite (Node.sameLines_render node depth h) o depth

/-- The lines of the clauses after an `if` are the same. -/
theorem Continuation.stacks_render : ∀ (next : Continuation) (depth : Nat),
    (∀ s ∈ next.strings, Unbroken s) → Stacks (fun e => (next.render (o.endingIn e) depth).value)
  | .done, _, _ => Stacks.nil
  | .elif condition body next, depth, h => by
    simp only [Continuation.strings, List.forall_mem_append] at h
    have hcondition := sameLinesEach_renderEach condition 0 h.1.1
    exact ((stacks_conditionHeader o depth (by decide) hcondition).append
      (Body.stacks_render body (depth + 1) h.1.2)).append
        (Continuation.stacks_render next depth h.2)
  | .otherwise body, depth, h => by
    have helse : Unbroken (o.line depth "else:") := Unbroken.line o depth (by decide)
    exact (Stacks.singleton (.of_unbroken helse)
      (fun _ => o.line_ne_empty depth (by decide))).append (Body.stacks_render body (depth + 1) h)

end

end Render

/-! ## What the texts show -/

/-- **A text with its line endings replaced**: cut at the one, joined with the
other. -/
def LineEnding.replace (old new : LineEnding) (text : String) : String :=
  new.text.intercalate (old.lines text)

/-- **The line structure of a text does not depend on the line ending**, and no
line of it is blank. -/
structure LinesAgree (text : LineEnding → String) : Prop where
  /-- The lines are the same. -/
  lines_eq : LineEnding.crlf.lines (text .crlf) = LineEnding.lf.lines (text .lf)
  /-- Each of them is a line: not empty, and with no line ending in it. -/
  isLine : ∀ e : LineEnding, ∀ line ∈ e.lines (text e), IsLine line
  /-- Replacing the line endings of one text gives the other. -/
  replace_eq : ∀ old new : LineEnding, old.replace new (text old) = text new
  /-- No text starts with a line ending. -/
  not_prefix : ∀ e ending : LineEnding, ¬ ending.text.toList <+: (text e).toList
  /-- No text ends with one. -/
  not_suffix : ∀ e ending : LineEnding, ¬ ending.text.toList <:+ (text e).toList
  /-- No text has two of them in a row. -/
  not_infix : ∀ e ending : LineEnding,
    ¬ ending.text.toList ++ ending.text.toList <:+: (text e).toList

/-- Whether a line may go on with the second character after the first: a line
feed ends a line, and so no line ending follows. -/
def GoesOn (c d : Char) : Prop := c = '\n' → d ≠ '\r' ∧ d ≠ '\n'

/-- A line ending starts and ends with characters that no line has. -/
theorem LineEnding.exists_text (e : LineEnding) :
    ∃ first rest, e.text.toList = first :: rest ∧ (first = '\r' ∨ first = '\n')
      ∧ e.text.toList.getLast? = some '\n' := by
  cases e with
  | crlf => exact ⟨'\r', ['\n'], rfl, Or.inl rfl, rfl⟩
  | lf => exact ⟨'\n', [], rfl, Or.inr rfl, rfl⟩

section Lines

variable {lines : List String} (h : ∀ line ∈ lines, IsLine line) (e : LineEnding)

include h

/-- Lines one below the other start like the first of them. -/
theorem head?_intercalate :
    ∀ c ∈ (e.text.intercalate lines).toList.head?, c ≠ '\r' ∧ c ≠ '\n' := by
  cases lines with
  | nil => rw [String.intercalate_nil]; exact nofun
  | cons line rest =>
    have hline : IsLine line := h line List.mem_cons_self
    obtain ⟨more, hmore⟩ : ∃ more, (e.text.intercalate (line :: rest)) = line ++ more := by
      cases rest with
      | nil => exact ⟨"", by rw [String.intercalate_singleton, String.append_empty]⟩
      | cons next rest => exact ⟨_, by rw [String.intercalate_cons_cons, String.append_assoc]⟩
    intro c hc
    rw [hmore, String.toList_append,
      List.head?_append_of_ne_nil _ (mt String.toList_eq_nil_iff.mp hline.ne_empty)] at hc
    exact hline.unbroken c (List.mem_of_mem_head? hc)

/-- Lines one below the other end like the last of them. -/
theorem getLast?_intercalate :
    ∀ c ∈ (e.text.intercalate lines).toList.getLast?, c ≠ '\r' ∧ c ≠ '\n' := by
  rcases List.eq_nil_or_concat lines with rfl | ⟨init, line, rfl⟩
  · rw [String.intercalate_nil]; exact nofun
  · rw [List.concat_eq_append] at h ⊢
    have hline : IsLine line := h line (by simp)
    obtain ⟨more, hmore⟩ : ∃ more, (e.text.intercalate (init ++ [line])) = more ++ line := by
      by_cases hi : init = []
      · exact ⟨"", by rw [hi, List.nil_append, String.intercalate_singleton, String.empty_append]⟩
      · exact ⟨_, by rw [String.intercalate_append_of_ne_nil hi (by simp),
          String.intercalate_singleton]⟩
    intro c hc
    rw [hmore, String.toList_append,
      List.getLast?_append_of_ne_nil _ (mt String.toList_eq_nil_iff.mp hline.ne_empty)] at hc
    exact hline.unbroken c (List.mem_of_mem_getLast? hc)

/-- After a line feed there is always another line. -/
theorem isChain_intercalate : (e.text.intercalate lines).toList.IsChain GoesOn := by
  induction lines with
  | nil => rw [String.intercalate_nil]; exact .nil
  | cons line rest ih =>
    rw [List.forall_mem_cons] at h
    have hfeed : ∀ c ∈ line.toList, c ≠ '\n' := fun c hc => (h.1.unbroken c hc).2
    have hline : line.toList.IsChain GoesOn :=
      (List.pairwise_of_forall_mem_list (fun c hc _ _ he => absurd he (hfeed c hc))).isChain
    cases rest with
    | nil => rwa [String.intercalate_singleton]
    | cons next rest =>
      have hending : e.text.toList.IsChain GoesOn := by
        cases e <;> simp [LineEnding.text, GoesOn]
      rw [String.intercalate_cons_cons, String.append_assoc, String.toList_append,
        String.toList_append]
      refine hline.append (hending.append (ih h.2) ?_) ?_
      · exact fun _ _ d hd _ => head?_intercalate h.2 e d hd
      · exact fun c hc _ _ he => absurd he (hfeed c (List.mem_of_mem_getLast? hc))

end Lines

/-- **A text with the same lines for every ending shows them.** -/
theorem SameLines.linesAgree {text : LineEnding → String} (h : SameLines text) :
    LinesAgree text := by
  obtain ⟨lines, hl, htext⟩ := h
  have hlines : ∀ e : LineEnding, e.lines (text e) = lines := fun e => by
    rw [htext e]
    exact e.lines_intercalate (fun line hline => (hl line hline).unbroken)
      (fun line hline => (hl line hline).ne_empty)
  constructor
  · rw [hlines, hlines]
  · intro e
    rwa [hlines]
  · intro old new
    rw [LineEnding.replace, hlines, htext new]
  · intro e ending hp
    obtain ⟨first, rest, hfirst, hbreak, -⟩ := ending.exists_text
    rw [htext e, hfirst] at hp
    have hhead := head?_intercalate hl e first (by
      obtain ⟨more, hmore⟩ := hp
      rw [← hmore]; rfl)
    exact hbreak.elim hhead.1 hhead.2
  · intro e ending hs
    obtain ⟨first, rest, hfirst, -, hlast⟩ := ending.exists_text
    rw [htext e] at hs
    have hend := getLast?_intercalate hl e '\n' (by
      obtain ⟨more, hmore⟩ := hs
      rw [← hmore, List.getLast?_append_of_ne_nil _ (by simp [hfirst]), hlast]; rfl)
    exact hend.2 rfl
  · intro e ending hi
    obtain ⟨first, rest, hfirst, hbreak, hlast⟩ := ending.exists_text
    rw [htext e] at hi
    have hchain := List.IsChain.infix (isChain_intercalate hl e) hi
    have hgoes : GoesOn '\n' first := by
      refine (List.isChain_append.mp hchain).2.2 '\n' hlast first ?_
      rw [hfirst]; rfl
    exact hbreak.elim (hgoes rfl).1 (hgoes rfl).2

/-- **The line structure of a layout does not depend on the line ending, and no
line is blank**: for a node at any depth and for a program, with whatever
other options, if no string has a line ending in it. -/
theorem linesAgree_render (o : Options) :
    (∀ (node : Node) (depth : Nat), (∀ s ∈ node.strings, Unbroken s) →
        LinesAgree (fun e => (node.render (o.endingIn e) depth).value))
      ∧ ∀ p : Program, (∀ s ∈ p.strings, Unbroken s) →
          LinesAgree (fun e => (p.render (o.endingIn e)).value) :=
  ⟨fun node depth h => (node.sameLines_render o depth h).linesAgree,
    fun p h => (Stacks.of_sameLinesEach (sameLinesEach_renderEach o p.body 0 h)).stack.linesAgree⟩

/-- An assignment of a loop, whose lines break into the line of the assignment. -/
def loopAsValue : Node :=
  .assignment (.name "x") "="
    [.whileLoop [.literal ["a"]] (.block [.literal ["b"], .call "f" [.literal ["1"]]]),
      .operator ["+"]]

/-- The lines of an assignment of a loop, one level in and as a program. -/
theorem linesAgree_render_loopAsValue :
    (∀ s ∈ loopAsValue.strings, Unbroken s)
      ∧ (loopAsValue.render {} 1).value
        = "    x = while a:\r\n    b\r\n    f(1) +"
      ∧ LinesAgree (fun e => (loopAsValue.render (Options.endingIn {} e) 1).value)
      ∧ LinesAgree (fun e => ((Program.mk [loopAsValue]).render (Options.endingIn {} e)).value) :=
  ⟨by decide, by decide, (linesAgree_render {}).1 loopAsValue 1 (by decide),
    (linesAgree_render {}).2 ⟨[loopAsValue]⟩ (by decide)⟩

end Offside
