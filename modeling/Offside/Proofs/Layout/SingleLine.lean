import Offside.Proofs.Layout.Rows
import Offside.Proofs.Program.Expressions
import Offside.Proofs.Reading.Yields

/-!
# Expressions on a single line

Within an expression nothing is indented, and an expression is meant to stand
on a line. That it does is not said by the type of programs, and it is not
asked when a parse tree is read. A part of an expression can be any node, and
a statement with something below it brings line endings into the line.

Which parts do is a question of a few places (`Node.isSingleLine`). A sequence
stays on the line if no more than one of its nodes has a text, a header if
there is nothing below it, and everything else if what is rendered of it
stays. `unbroken_expression_iff` says that this is exact: for every program
from a parse tree without line endings in its texts, the layout of an
expression has a line ending in it if and only if one of its parts does not
stay on the line. Expressions of inline nodes do (`areSingleLine_of_areInline`).
-/

namespace Offside

/-! ## Unbroken joins -/

/-- **A join is unbroken if what is joined is**, and the separator, unless it has
no place. -/
theorem unbroken_intercalate_iff {separator : String} : ∀ {texts : List String},
    Unbroken (separator.intercalate texts)
      ↔ (∀ text ∈ texts, Unbroken text) ∧ (Unbroken separator ∨ texts.length ≤ 1)
  | [] => by
    rw [String.intercalate_nil]
    exact iff_of_true unbroken_empty ⟨List.forall_mem_nil _, .inr (Nat.zero_le 1)⟩
  | [text] => by
    rw [String.intercalate_singleton, List.forall_mem_singleton]
    exact (and_iff_left (.inr (Nat.le_refl 1))).symm
  | text :: next :: rest => by
    have ih : Unbroken (separator.intercalate (next :: rest)) ↔ _ := unbroken_intercalate_iff
    have hlong : ¬ (text :: next :: rest).length ≤ 1 := by simp
    rw [String.intercalate_cons_cons, unbroken_append, unbroken_append, ih,
      or_iff_left hlong, List.forall_mem_cons (l := next :: rest)]
    constructor
    · rintro ⟨⟨ht, hs⟩, hrest, -⟩
      exact ⟨⟨ht, hrest⟩, hs⟩
    · rintro ⟨⟨ht, hrest⟩, hs⟩
      exact ⟨⟨ht, hs⟩, hrest, .inl hs⟩

/-- Texts that are left out do not break a join. -/
theorem unbroken_joinNonEmpty_iff {separator : String} {texts : List String} :
    Unbroken (joinNonEmpty separator texts)
      ↔ (∀ text ∈ texts, Unbroken text)
        ∧ (Unbroken separator ∨ (texts.filter (· ≠ "")).length ≤ 1) := by
  rw [joinNonEmpty, unbroken_intercalate_iff]
  refine and_congr_left' ⟨fun h text ht => ?_, fun h text ht => h text (List.mem_filter.mp ht).1⟩
  by_cases he : text = ""
  · rw [he]
    exact unbroken_empty
  · exact h text (List.mem_filter.mpr ⟨ht, by simpa using he⟩)

/-- Texts on a line. -/
theorem unbroken_join_iff {separator : String} (hs : Unbroken separator) {texts : List String} :
    Unbroken (joinNonEmpty separator texts) ↔ ∀ text ∈ texts, Unbroken text := by
  rw [unbroken_joinNonEmpty_iff]
  exact and_iff_left (.inl hs)

theorem LineEnding.not_unbroken (e : LineEnding) : ¬ Unbroken e.text := by
  cases e <;> decide

/-- **Texts one below the other** are on one line if no more than one has
characters. -/
theorem unbroken_stackNonEmpty_iff (o : Options) {texts : List String} :
    Unbroken (o.stackNonEmpty texts)
      ↔ (∀ text ∈ texts, Unbroken text) ∧ (texts.filter (· ≠ "")).length ≤ 1 := by
  rw [Options.stackNonEmpty, unbroken_joinNonEmpty_iff, or_iff_right o.lineEnding.not_unbroken]

/-- **A header is on one line if there is nothing below it.** -/
theorem unbroken_stack_cons_iff (o : Options) {header : String} {below : List String} :
    Unbroken (o.stack (header :: below)) ↔ Unbroken header ∧ below = [] := by
  rw [Options.stack, unbroken_intercalate_iff, or_iff_right o.lineEnding.not_unbroken,
    List.forall_mem_cons, List.length_cons]
  cases below with
  | nil => simp
  | cons text rest => simp

/-! ## Parts that stay on the line -/

mutual

/-- **Whether a node in an expression stays on the line.** -/
def Node.isSingleLine (o : Options) : Node → Bool
  | .sequence _ nodes =>
    areSingleLine o nodes && ((renderEach o 0 nodes).value.filter (· ≠ "")).length ≤ 1
  | .wrapper _ inner => inner.isSingleLine o
  | .declaration _ | .operator _ | .literal _ | .token _ => true
  | .assignment _ _ value | .expression value | .returnExpr value => areSingleLine o value
  | .conditional condition body .done =>
    areSingleLine o condition && (body.render o 1).value.isEmpty
  | .conditional _ _ _ => false
  | .whileLoop condition body => areSingleLine o condition && (body.render o 1).value.isEmpty
  | .method _ _ _ body => ((Body.block body).render o 1).value.isEmpty
  | .call _ args => keptAreSingleLine o args

/-- Whether all of these nodes stay on the line. -/
def areSingleLine (o : Options) : List Node → Bool
  | [] => true
  | node :: nodes => node.isSingleLine o && areSingleLine o nodes

/-- Whether all of these arguments that are kept stay on the line. -/
def keptAreSingleLine (o : Options) : List Node → Bool
  | [] => true
  | arg :: args =>
    (o.callArguments.fate arg ≠ .kept || arg.isSingleLine o) && keptAreSingleLine o args

end

section Render

variable (o : Options)

/-- The clauses after an `if` are below it, if there are any. -/
theorem Continuation.value_render_eq_nil_iff (next : Continuation) (depth : Nat) :
    (next.render o depth).value = [] ↔ next = .done := by
  cases next with
  | done => exact iff_of_true rfl rfl
  | elif condition body next => exact iff_of_false nofun nofun
  | otherwise body => exact iff_of_false nofun nofun

/-- The header of a clause or a loop is on one line if its condition is. -/
theorem unbroken_header_iff {keyword : String} (hk : Unbroken keyword) {condition : List Node}
    (h : (∀ text ∈ (renderEach o 0 condition).value, Unbroken text)
      ↔ areSingleLine o condition = true) :
    Unbroken (o.line 0 (keyword ++ joinNonEmpty " " (renderEach o 0 condition).value ++ ":"))
      ↔ areSingleLine o condition = true := by
  rw [← h, ← unbroken_join_iff (show Unbroken " " by decide), Options.line_zero, unbroken_append,
    unbroken_append, and_iff_left (show Unbroken ":" by decide), and_iff_right hk]

mutual

/-- **A node in an expression is on one line if and only if it stays on the
line**, if its strings are unbroken. -/
theorem Node.unbroken_render_iff : ∀ node : Node, (∀ s ∈ node.strings, Unbroken s) →
    (Unbroken (node.render o 0).value ↔ node.isSingleLine o = true)
  | .sequence _ nodes, h => by
    rw [Node.isSingleLine, Bool.and_eq_true, decide_eq_true_iff, ← unbroken_renderEach_iff nodes h]
    exact unbroken_stackNonEmpty_iff o
  | .wrapper _ inner, h => Node.unbroken_render_iff inner h
  | .declaration d, h => by
    have hname : Unbroken d.name := h _ (List.mem_cons_of_mem _ List.mem_cons_self)
    exact iff_of_true (hname.line o 0) rfl
  | .assignment target op value, h => by
    simp only [Node.strings, List.forall_mem_append, List.forall_mem_cons] at h
    have hvalue := (unbroken_join_iff (show Unbroken " " by decide)).trans
      (unbroken_renderEach_iff value h.2.2)
    have hbefore : Unbroken (target.boundName ++ " " ++ op ++ " ") := by
      simp only [unbroken_append]
      exact ⟨⟨⟨h.1 _ target.boundName_mem_strings, by decide⟩, h.2.1⟩, by decide⟩
    rw [Node.isSingleLine, ← hvalue]
    simp only [Node.render, Logged.value_bind, Logged.value_pure, Options.line_zero]
    rw [unbroken_append]
    exact and_iff_right hbefore
  | .expression parts, h => by
    have hparts := (unbroken_join_iff (show Unbroken " " by decide)).trans
      (unbroken_renderEach_iff parts h)
    simp only [Node.render, Logged.value_bind, Logged.value_pure, Options.place_zero]
    exact hparts
  | .operator tokens, h => by
    simp only [Node.render, Logged.value_pure, Options.place_zero]
    exact iff_of_true (Unbroken.joinNonEmpty (by decide) h) rfl
  | .literal tokens, h => by
    simp only [Node.render, Logged.value_pure, Options.place_zero]
    exact iff_of_true (Unbroken.joinNonEmpty (by decide) h) rfl
  | .conditional condition body next, h => by
    simp only [Node.strings, List.forall_mem_append] at h
    have hheader := unbroken_header_iff o (show Unbroken "if " by decide)
      (unbroken_renderEach_iff condition h.1.1)
    have hnext := next.value_render_eq_nil_iff o 0
    simp only [Node.render, Logged.value_bind, Logged.value_pure, List.cons_append]
    rw [unbroken_stack_cons_iff, hheader, List.append_eq_nil_iff, hnext]
    cases next with
    | done => simp [Node.isSingleLine]
    | elif _ _ _ => simp [Node.isSingleLine]
    | otherwise _ => simp [Node.isSingleLine]
  | .whileLoop condition body, h => by
    simp only [Node.strings, List.forall_mem_append] at h
    have hheader := unbroken_header_iff o (show Unbroken "while " by decide)
      (unbroken_renderEach_iff condition h.1)
    simp only [Node.render, Logged.value_bind, Logged.value_pure]
    rw [unbroken_stack_cons_iff, hheader, Node.isSingleLine, Bool.and_eq_true, List.isEmpty_iff]
  | .method _ name args body, h => by
    simp only [Node.strings, List.cons_append, List.forall_mem_append, List.forall_mem_cons] at h
    have hheader : Unbroken
        (o.line 0 ("def " ++ name ++ "(" ++ ", ".intercalate (parameterNames args) ++ "):")) := by
      refine Unbroken.line o 0 ?_
      simp only [unbroken_append]
      exact ⟨⟨⟨⟨by decide, h.2.1⟩, by decide⟩,
        Unbroken.intercalate (by decide) (unbroken_parameterNames h.2.2.1)⟩, by decide⟩
    simp only [Node.render, Logged.value_bind, Logged.value_pure]
    rw [unbroken_stack_cons_iff, Node.isSingleLine, List.isEmpty_iff]
    exact and_iff_right hheader
  | .returnExpr value, h => by
    have hvalue := (unbroken_join_iff (show Unbroken " " by decide)).trans
      (unbroken_renderEach_iff value h)
    rw [Node.isSingleLine, ← hvalue]
    simp only [Node.render, Logged.value_bind, Logged.value_pure, Options.line_zero]
    split
    · rename_i hempty
      rw [hempty]
      exact iff_of_true (by decide) unbroken_empty
    · rw [unbroken_append]
      exact and_iff_right (by decide)
  | .call name args, h => by
    rw [Node.strings, List.forall_mem_cons] at h
    have hargs := (unbroken_join_iff (show Unbroken ", " by decide)).trans
      (unbroken_renderArguments_iff name args h.2)
    rw [Node.isSingleLine, ← hargs]
    simp only [Node.render, Logged.value_bind, Logged.value_pure, Options.place_zero,
      unbroken_append]
    constructor
    · rintro ⟨⟨-, harguments⟩, -⟩
      exact harguments
    · intro harguments
      exact ⟨⟨⟨h.1, by decide⟩, harguments⟩, by decide⟩
  | .token _, _ => iff_of_true unbroken_empty rfl

/-- The texts of nodes in an expression. -/
theorem unbroken_renderEach_iff : ∀ nodes : List Node, (∀ s ∈ stringsOf nodes, Unbroken s) →
    ((∀ text ∈ (renderEach o 0 nodes).value, Unbroken text) ↔ areSingleLine o nodes = true)
  | [], _ => iff_of_true (List.forall_mem_nil _) rfl
  | node :: nodes, h => by
    rw [stringsOf, List.forall_mem_append] at h
    rw [areSingleLine, Bool.and_eq_true, ← Node.unbroken_render_iff node h.1,
      ← unbroken_renderEach_iff nodes h.2]
    exact List.forall_mem_cons

/-- The texts of the arguments that are kept. -/
theorem unbroken_renderArguments_iff (callee : String) : ∀ args : List Node,
    (∀ s ∈ stringsOf args, Unbroken s) →
      ((∀ text ∈ (renderArguments o callee args).value, Unbroken text)
        ↔ keptAreSingleLine o args = true)
  | [], _ => iff_of_true (List.forall_mem_nil _) rfl
  | arg :: args, h => by
    rw [stringsOf, List.forall_mem_append] at h
    have ih := unbroken_renderArguments_iff callee args h.2
    rw [renderArguments, keptAreSingleLine, Bool.and_eq_true, ← ih]
    cases hf : o.callArguments.fate arg with
    | kept =>
      simp only [ne_eq, not_true_eq_false, decide_false, Bool.false_or]
      rw [← Node.unbroken_render_iff arg h.1]
      exact List.forall_mem_cons
    | skipped => simp
    | dropped => simp

end

end Render

mutual

/-- **Inline nodes stay on the line.** -/
theorem Node.isSingleLine_of_isInline (o : Options) : ∀ node : Node,
    node.isInline o.callArguments = true → node.isSingleLine o = true
  | .expression parts, h => areSingleLine_of_areInline o parts h
  | .operator _, _ | .literal _, _ | .declaration _, _ | .token _, _ => rfl
  | .call _ args, h => keptAreSingleLine_of_keptAreInline o args h

/-- Inline nodes stay on the line. -/
theorem areSingleLine_of_areInline (o : Options) : ∀ nodes : List Node,
    areInline o.callArguments nodes = true → areSingleLine o nodes = true
  | [], _ => rfl
  | node :: nodes, h => by
    rw [areInline, Bool.and_eq_true] at h
    rw [areSingleLine, Bool.and_eq_true]
    exact ⟨Node.isSingleLine_of_isInline o node h.1, areSingleLine_of_areInline o nodes h.2⟩

/-- Arguments that are kept and inline stay on the line. -/
theorem keptAreSingleLine_of_keptAreInline (o : Options) : ∀ args : List Node,
    keptAreInline o.callArguments args = true → keptAreSingleLine o args = true
  | [], _ => rfl
  | arg :: args, h => by
    rw [keptAreInline, Bool.and_eq_true, Bool.or_eq_true] at h
    rw [keptAreSingleLine, Bool.and_eq_true, Bool.or_eq_true]
    exact ⟨h.1.imp_right (Node.isSingleLine_of_isInline o arg),
      keptAreSingleLine_of_keptAreInline o args h.2⟩

end

/-! ## The expressions of a program that is read -/

theorem keptByAppend_unbroken : KeptByAppend Unbroken :=
  ⟨unbroken_empty, fun h h' => unbroken_append.mpr ⟨h, h'⟩⟩

/-- **An expression stands on one line if and only if all of its parts stay on
the line**, and each part is on one line if and only if it stays on the line:
in every program that is read from a parse tree without line endings in its
texts, with whatever options. Inline parts always do. -/
theorem unbroken_expression_iff {t : ParseTree} {p : Program} (ht : ∀ s ∈ t.texts, Unbroken s)
    (hp : (Program.ofParseTree t).outcome = .ok p) (o : Options) {e : Expression}
    (he : e ∈ p.expressions) :
    (Unbroken ((Node.expression e).render o 0).value ↔ areSingleLine o e = true)
      ∧ (∀ part ∈ e, Unbroken (part.render o 0).value ↔ part.isSingleLine o = true)
      ∧ (areInline o.callArguments e = true → Unbroken ((Node.expression e).render o 0).value) := by
  have hstrings : ∀ s ∈ stringsOf e, Unbroken s := fun s hs =>
    Reading.yields_strings_ofParseTree keptByAppend_unbroken ht p hp s
      (writtenIn_stringsOf p.body e he hs)
  have hiff := (Node.expression e).unbroken_render_iff o hstrings
  refine ⟨hiff, fun part hpart => ?_, fun hinline => ?_⟩
  · exact part.unbroken_render_iff o fun s hs => hstrings s (strings_of_mem_stringsOf hpart s hs)
  · exact hiff.mpr (areSingleLine_of_areInline o e hinline)

/-- A tree of two `return` statements: with a sum, and with two statements in
the place of an expression. -/
def blockAsValueTree : ParseTree :=
  .rule "start"
    [.rule "returnExpr" [.rule "expression"
      [.leaf "primaryLiteral" "a", .leaf "operator" "+", .leaf "primaryLiteral" "b"]],
    .rule "returnExpr" [.rule "expression"
      [.rule "statements" [.leaf "primaryLiteral" "a", .leaf "primaryLiteral" "b"]]]]

/-- The program of the tree. -/
def blockAsValue : Program :=
  ⟨[.returnExpr [.literal ["a"], .operator ["+"], .literal ["b"]],
    .returnExpr [.sequence .statements [.literal ["a"], .literal ["b"]]]]⟩

theorem ofParseTree_blockAsValueTree :
    (Program.ofParseTree blockAsValueTree).outcome = .ok blockAsValue := by rfl

/-- The sum stands on one line and the statements do not. -/
theorem blockAsValueTree_unbroken_expression_iff :
    Unbroken ((Node.expression [.literal ["a"], .operator ["+"], .literal ["b"]]).render {} 0).value
      ∧ ¬ Unbroken ((Node.expression [.sequence .statements [.literal ["a"], .literal ["b"]]]).render
        {} 0).value := by
  have hexpression {e : Expression} (he : e ∈ blockAsValue.expressions) :=
    unbroken_expression_iff (t := blockAsValueTree) (by decide) ofParseTree_blockAsValueTree {} he
  have hsum := hexpression (e := [.literal ["a"], .operator ["+"], .literal ["b"]]) (.head _)
  have hblock := hexpression (e := [.sequence .statements [.literal ["a"], .literal ["b"]]])
    (.tail _ (.head _))
  exact ⟨hsum.2.2 rfl, fun h => absurd (hblock.1.mp h) (by decide)⟩

/-- **Not every expression stands on one line**: a parse tree with statements in
an expression is read, and there is nothing in its texts to be blamed. -/
theorem not_forall_expressions_unbroken :
    ¬ ∀ (t : ParseTree) (p : Program), (∀ s ∈ t.texts, Unbroken s) →
      (Program.ofParseTree t).outcome = .ok p → ∀ (o : Options), ∀ e ∈ p.expressions,
        Unbroken ((Node.expression e).render o 0).value := by
  intro h
  have hblock := h blockAsValueTree blockAsValue (by decide) ofParseTree_blockAsValueTree {}
    [.sequence .statements [.literal ["a"], .literal ["b"]]] (.tail _ (.head _))
  exact absurd hblock (by decide)

end Offside
