import Mathlib.Data.List.Basic
import Offside.Proofs.Layout.Inline
import Offside.Proofs.ParseTree.Texts
import Offside.Proofs.Reading.Outcome
import Offside.Proofs.Text.Join

/-!
# Formulas, token for token

An expression in a parse tree may be grouped by expressions within it, to any
depth, and groups may be empty. A **formula** is such a tree: an operator, a
literal, or an expression of formulas. What is below its operators and literals,
its **atoms**, may be anything, since only the source text of it counts.

A formula is read without fail and without a choice, and its layout is the tokens
of its atoms in order with a space between any two, the empty ones left out
(`render_formula`). The groups leave no trace. A group that has no token of its
own is an empty part of the expression around it, and for any other it makes no
difference whether its tokens are joined first or along with their neighbours
(`JoinAlike`). So nothing is lost but empty tokens, and nothing is added but
spaces. Without its spaces the layout is the source text without its spaces.
-/

namespace Offside

/-! ## Formulas and their atoms -/

namespace ParseTree

mutual

/-- **A formula**: an operator, a literal, or an expression of formulas. An
expression without children has no text that could be lost. -/
def isFormula : ParseTree → Bool
  | ⟨kind, text, children⟩ =>
    match Rule.ofKind? kind with
    | some .operator | some .primaryLiteral => true
    | some .expression => (!children.isEmpty || text.getD "" == "") && areFormulas children
    | _ => false

/-- Whether all of these trees are formulas. -/
def areFormulas : List ParseTree → Bool
  | [] => true
  | tree :: trees => tree.isFormula && areFormulas trees

end

mutual

/-- **The atoms of a formula**: the operators and literals that are not within
another one, from left to right. -/
def atoms : ParseTree → List ParseTree
  | ⟨kind, text, children⟩ =>
    match Rule.ofKind? kind with
    | some .expression => atomsOf children
    | _ => [⟨kind, text, children⟩]

/-- The atoms of formulas one after the other. -/
def atomsOf : List ParseTree → List ParseTree
  | [] => []
  | tree :: trees => tree.atoms ++ atomsOf trees

end

/-- **The words of a formula**: the tokens of its atoms that are not empty. -/
def words (t : ParseTree) : List String := (t.atoms.flatMap tokens).filter (· ≠ "")

theorem areFormulas_iff (trees : List ParseTree) :
    areFormulas trees = true ↔ ∀ t ∈ trees, t.isFormula = true := by
  induction trees with
  | nil => exact iff_of_true rfl (List.forall_mem_nil _)
  | cons tree trees ih => rw [areFormulas, Bool.and_eq_true, ih, List.forall_mem_cons]

theorem atomsOf_eq_flatMap (trees : List ParseTree) : atomsOf trees = trees.flatMap atoms := by
  induction trees with
  | nil => rfl
  | cons tree trees ih => rw [atomsOf, ih, List.flatMap_cons]

section Formula

variable {t : ParseTree}

/-- A formula is an atom or a group. -/
theorem atom_or_group_of_isFormula (h : t.isFormula = true) :
    (t.rule? = some .operator ∨ t.rule? = some .primaryLiteral)
      ∨ t.rule? = some .expression ∧ (t.children = [] → t.text.getD "" = "")
        ∧ ∀ child ∈ t.children, child.isFormula = true := by
  obtain ⟨kind, text, children⟩ := t
  rw [isFormula] at h
  show (Rule.ofKind? kind = _ ∨ Rule.ofKind? kind = _) ∨ Rule.ofKind? kind = _ ∧ _
  split at h
  · exact .inl (.inl ‹_›)
  · exact .inl (.inr ‹_›)
  · rw [Bool.and_eq_true, areFormulas_iff] at h
    refine .inr ⟨‹_›, fun hnil => ?_, h.2⟩
    subst hnil
    exact eq_of_beq h.1
  · cases h

/-- The atoms of a group are those of its parts. -/
theorem atoms_of_group (h : t.rule? = some .expression) :
    t.atoms = t.children.flatMap atoms := by
  obtain ⟨kind, text, children⟩ := t
  have hk : Rule.ofKind? kind = some .expression := h
  rw [atoms, hk, atomsOf_eq_flatMap]

theorem atoms_of_atom (h : t.rule? ≠ some .expression) : t.atoms = [t] := by
  obtain ⟨kind, text, children⟩ := t
  rw [atoms]
  split
  · exact absurd ‹_› h
  · rfl

theorem words_of_group (h : t.rule? = some .expression) : t.words = t.children.flatMap words := by
  unfold words
  rw [atoms_of_group h, List.flatMap_assoc, List.filter_flatMap]

theorem words_of_atom (h : t.rule? ≠ some .expression) : t.words = t.tokens.filter (· ≠ "") := by
  rw [words, atoms_of_atom h, List.flatMap_singleton]

end Formula

end ParseTree

/-! ## Words and spaces -/

/-- Empty texts add nothing to a text. -/
theorem join_filter_ne_empty (texts : List String) :
    String.join (texts.filter (· ≠ "")) = String.join texts := by
  induction texts with
  | nil => rfl
  | cons text texts ih =>
    by_cases h : text = ""
    · rw [List.filter_cons_of_neg (by simpa using h), ih, String.join_cons, h, String.empty_append]
    · rw [List.filter_cons_of_pos (by simpa using h), String.join_cons, String.join_cons, ih]

theorem join_flatMap {α : Type} (f : α → List String) (l : List α) :
    String.join (l.flatMap f) = String.join (l.map fun a => String.join (f a)) := by
  rw [← String.toList_inj, String.toList_join, String.toList_join, List.flatMap_assoc,
    List.flatMap_map]
  exact List.flatMap_congr fun a _ => String.toList_join.symm

/-- **The words of a formula cover it.** -/
theorem ParseTree.join_words {t : ParseTree} (h : t.isFormula = true) :
    String.join t.words = t.sourceText := by
  induction t using ParseTree.forall_of_children with | step t ih
  rcases atom_or_group_of_isFormula h with hatom | ⟨hgroup, htext, hparts⟩
  · have hne : t.rule? ≠ some .expression := by
      rcases hatom with hr | hr <;> rw [hr] <;> decide
    rw [words_of_atom hne, join_filter_ne_empty, join_tokens]
  · rw [words_of_group hgroup]
    by_cases hnil : t.children = []
    · obtain ⟨kind, text, _⟩ := t
      subst hnil
      exact (htext rfl).symm
    · rw [sourceText_of_children hnil, join_flatMap]
      exact congrArg String.join (List.map_congr_left fun child hchild =>
        ih child hchild (hparts child hchild))

/-- **A text without its spaces.** -/
def withoutSpaces (text : String) : String := String.ofList (text.toList.filter (· ≠ ' '))

theorem withoutSpaces_append (text more : String) :
    withoutSpaces (text ++ more) = withoutSpaces text ++ withoutSpaces more := by
  unfold withoutSpaces
  rw [String.toList_append, List.filter_append, String.ofList_append]

/-- Indentation is nothing but spaces. -/
theorem withoutSpaces_place (o : Options) (depth : Nat) (text : String) :
    withoutSpaces (o.place depth text) = withoutSpaces text := by
  have hindent : withoutSpaces (o.indent depth) = "" := by
    unfold withoutSpaces Options.indent
    rw [String.toList_ofList, List.filter_replicate_of_neg (by decide), String.ofList_nil]
  unfold Options.place
  split
  · rename_i h
    rw [h]
  · rw [withoutSpaces_append, hindent, String.empty_append]

/-- **Without spaces there is no telling where texts were joined.** -/
theorem withoutSpaces_intercalate (texts : List String) :
    withoutSpaces (" ".intercalate texts) = withoutSpaces (String.join texts) := by
  induction texts with
  | nil => rfl
  | cons text texts ih =>
    cases texts with
    | nil =>
      rw [String.intercalate_singleton, String.join_cons]
      exact congrArg withoutSpaces String.append_empty.symm
    | cons next texts =>
      have hspace : withoutSpaces " " = "" := by decide +kernel
      rw [String.intercalate_cons_cons, String.join_cons, withoutSpaces_append,
        withoutSpaces_append, withoutSpaces_append, ih, hspace, String.append_empty]

/-! ## Reading and laying out a formula -/

namespace Reading

variable {t : ParseTree}

theorem node_of_operator (h : t.rule? = some .operator) : node t = pure (.operator t.tokens) := by
  obtain ⟨kind, text, children⟩ := t
  have hk : Rule.ofKind? kind = some .operator := h
  unfold node
  rw [hk]

theorem node_of_primaryLiteral (h : t.rule? = some .primaryLiteral) :
    node t = pure (.literal t.tokens) := by
  obtain ⟨kind, text, children⟩ := t
  have hk : Rule.ofKind? kind = some .primaryLiteral := h
  unfold node
  rw [hk]

theorem node_of_expression {parts : Expression} (h : t.rule? = some .expression)
    (hparts : nodes t.children = pure parts) : node t = pure (.expression parts) := by
  obtain ⟨kind, text, children⟩ := t
  have hk : Rule.ofKind? kind = some .expression := h
  unfold node
  rw [hk]
  exact congrArg (Node.expression <$> ·) hparts

/-- **A tree is read as this node, and the node says the words of the tree.** -/
structure SaysWords (t : ParseTree) (node : Node) : Prop where
  /-- The tree is read without fail, and nothing is logged. -/
  node_eq : Reading.node t = pure node
  /-- So is the node laid out, and its text is the words of the tree. -/
  render_eq : ∀ o, node.render o 0 = pure (" ".intercalate t.words)

/-- **Parts say the words of trees** if they join as the words do. -/
structure SayWords (trees : List ParseTree) (parts : Expression) : Prop where
  /-- The trees are read without fail, and nothing is logged. -/
  nodes_eq : Reading.nodes trees = pure parts
  /-- Nothing is logged when the parts are laid out. -/
  events_eq : ∀ o, (renderEach o 0 parts).events = []
  /-- The texts of the parts that have one join as the words of the trees do. -/
  joinAlike : ∀ o, JoinAlike " " ((renderEach o 0 parts).value.filter (· ≠ ""))
    (trees.flatMap ParseTree.words)

theorem ne_empty_of_mem_words : ∀ word ∈ t.words, word ≠ "" := by
  intro word hword
  simpa using (List.mem_filter.mp hword).2

/-- A tree in front of trees. -/
theorem SayWords.cons {trees : List ParseTree} {node : Node} {parts : Expression}
    (h : SaysWords t node) (hs : SayWords trees parts) :
    SayWords (t :: trees) (node :: parts) where
  nodes_eq := by
    rw [nodes, h.node_eq, hs.nodes_eq]
    rfl
  events_eq o := by
    rw [renderEach, h.render_eq]
    simp only [Logged.events_bind, Logged.events_pure, hs.events_eq, List.append_nil]
  joinAlike o := by
    rw [renderEach, h.render_eq, List.flatMap_cons]
    exact JoinAlike.filter_cons rfl ne_empty_of_mem_words (hs.joinAlike o)

/-- **A group is laid out as its parts are**, with a space between any two words. -/
theorem SayWords.render_expression {parts : Expression} (hs : SayWords t.children parts)
    (h : t.rule? = some .expression) (o : Options) (depth : Nat) :
    (Node.expression parts).render o depth = pure (o.place depth (" ".intercalate t.words)) := by
  have hjoin : joinNonEmpty " " (renderEach o 0 parts).value = " ".intercalate t.words := by
    rw [ParseTree.words_of_group h]
    exact (hs.joinAlike o).intercalate_eq
  refine Logged.ext ?_ ?_
  · simp only [Node.render, Logged.value_bind, Logged.value_pure, hjoin]
  · simp only [Node.render, Logged.events_bind, Logged.events_pure, hs.events_eq, List.append_nil]

/-- Trees that are read one by one are read together. -/
theorem exists_sayWords {trees : List ParseTree} (h : ∀ t ∈ trees, ∃ node, SaysWords t node) :
    ∃ parts, SayWords trees parts := by
  induction trees with
  | nil => exact ⟨[], rfl, fun _ => rfl, fun _ => JoinAlike.refl []⟩
  | cons t trees ih =>
    rw [List.forall_mem_cons] at h
    obtain ⟨node, hnode⟩ := h.1
    obtain ⟨parts, hparts⟩ := ih h.2
    exact ⟨node :: parts, hparts.cons hnode⟩

/-- **A formula says its words.** -/
theorem exists_saysWords (t : ParseTree) (h : t.isFormula = true) : ∃ node, SaysWords t node := by
  induction t using ParseTree.forall_of_children with | step t ih
  have hatom (hr : t.rule? ≠ some .expression) (o : Options) :
      o.place 0 (joinNonEmpty " " t.tokens) = " ".intercalate t.words := by
    rw [Options.place_zero, ParseTree.words_of_atom hr, joinNonEmpty]
  rcases t.atom_or_group_of_isFormula h with (hr | hr) | ⟨hr, -, hparts⟩
  · refine ⟨.operator t.tokens, node_of_operator hr, fun o => ?_⟩
    rw [Node.render, hatom (by rw [hr]; decide)]
  · refine ⟨.literal t.tokens, node_of_primaryLiteral hr, fun o => ?_⟩
    rw [Node.render, hatom (by rw [hr]; decide)]
  · obtain ⟨parts, hs⟩ := exists_sayWords fun child hchild => ih child hchild (hparts child hchild)
    refine ⟨.expression parts, node_of_expression hr hs.nodes_eq, fun o => ?_⟩
    rw [hs.render_expression hr, Options.place_zero]

/-- The parts of a group say its words. -/
theorem exists_sayWords_children (hr : t.rule? = some .expression) (h : t.isFormula = true) :
    ∃ parts, SayWords t.children parts := by
  refine exists_sayWords fun child hchild => exists_saysWords child ?_
  rcases t.atom_or_group_of_isFormula h with (hatom | hatom) | ⟨-, -, hparts⟩
  · exact absurd (hr.symm.trans hatom) (by decide)
  · exact absurd (hr.symm.trans hatom) (by decide)
  · exact hparts child hchild

end Reading

/-- **An expression of operators and literals is laid out token for token.** It is
read without fail, and its text is the tokens of its atoms that are not empty, in
order, with one space between any two; in statement position that text is
indented. Nothing is logged on the way. Without spaces it is the source text of the
tree without spaces, and a tree that groups the same atoms in another way is laid
out the same. -/
theorem render_formula (t : ParseTree) (hr : t.rule? = some .expression)
    (h : t.isFormula = true) :
    ∃ parts : Expression, Reading.node t = pure (.expression parts)
      ∧ (∀ o : Options, (Node.expression parts).render o 0
        = pure (joinNonEmpty " " (t.atoms.flatMap ParseTree.tokens)))
      ∧ (∀ (o : Options) (depth : Nat), (Node.expression parts).render o depth
          = pure (o.place depth (joinNonEmpty " " (t.atoms.flatMap ParseTree.tokens)))
        ∧ withoutSpaces ((Node.expression parts).render o depth).value
          = withoutSpaces t.sourceText)
      ∧ ∀ t' : ParseTree, t'.rule? = some .expression → t'.isFormula = true →
        t'.atoms = t.atoms → ∃ parts' : Expression, Reading.node t' = pure (.expression parts')
          ∧ ∀ (o : Options) (depth : Nat),
            (Node.expression parts').render o depth = (Node.expression parts).render o depth := by
  obtain ⟨parts, hs⟩ := Reading.exists_sayWords_children hr h
  have hrender := hs.render_expression hr
  refine ⟨parts, Reading.node_of_expression hr hs.nodes_eq, fun o => ?_, fun o depth => ?_, ?_⟩
  · rw [hrender, Options.place_zero]
    rfl
  · refine ⟨hrender o depth, ?_⟩
    rw [hrender, Logged.value_pure, withoutSpaces_place, withoutSpaces_intercalate,
      ParseTree.join_words h]
  · intro t' hr' h' hatoms
    obtain ⟨parts', hs'⟩ := Reading.exists_sayWords_children hr' h'
    refine ⟨parts', Reading.node_of_expression hr' hs'.nodes_eq, fun o depth => ?_⟩
    rw [hs'.render_expression hr', hrender, ParseTree.words, ParseTree.words, hatoms]

/-- An expression with empty groups in it, a group of nothing but empty tokens, an
operator of two characters that are terminals of their own, and a literal that is
put together from below and has a space in it. -/
def groupedTree : ParseTree :=
  .rule "expression"
    [.rule "expression" [.rule "Expression" [], .leaf "operator" ""],
      .rule "Expression" [.leaf "primaryLiteral" "a",
        .rule "operator" [.leaf "LT" "<", .leaf "WS" "", .leaf "EQ" "="]],
      .rule "primaryLiteral" [.rule "expression" [.leaf "ID" "b", .leaf "';'" " c"]]]

/-- The groups leave no trace, and neither do the empty tokens. -/
theorem groupedTree_render_formula :
    groupedTree.rule? = some .expression ∧ groupedTree.isFormula = true
      ∧ groupedTree.sourceText = "a<=b c"
      ∧ ∃ parts : Expression, Reading.node groupedTree = pure (.expression parts)
        ∧ ∀ o : Options, (Node.expression parts).render o 0 = pure "a < = b c" := by
  have hr : groupedTree.rule? = some .expression := by decide +kernel
  have h : groupedTree.isFormula = true := by decide +kernel
  obtain ⟨parts, hread, hrender, -, -⟩ := render_formula groupedTree hr h
  have htext : joinNonEmpty " " (groupedTree.atoms.flatMap ParseTree.tokens) = "a < = b c" := by
    decide +kernel
  exact ⟨hr, h, by decide +kernel, parts, hread, fun o => by rw [hrender, htext]⟩

end Offside
