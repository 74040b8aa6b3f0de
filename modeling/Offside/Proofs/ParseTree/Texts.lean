import Offside.ParseTree.Basic

/-!
# The texts in a parse tree

A program is put together from the texts in its parse tree. A word of the
program may be one of these texts, or several of them one behind the other, or
it may be empty where a node has none. So what all texts of a tree have is
also had by the source text of each node, if it is kept when texts are put
together (`ParseTree.sourceText_of_texts`). The source text of a node is its tokens
put together (`ParseTree.join_tokens`).
-/

namespace Offside

mutual

/-- **The texts in a parse tree**, of whatever nodes. -/
def ParseTree.texts : ParseTree → List String
  | ⟨_, text, children⟩ => text.toList ++ textsOf children

/-- The texts in parse trees. -/
def textsOf : List ParseTree → List String
  | [] => []
  | tree :: trees => tree.texts ++ textsOf trees

end

/-- **A property that texts keep when they are put together.** -/
structure KeptByAppend (P : String → Prop) : Prop where
  /-- The empty text has it. -/
  empty : P ""
  /-- A text behind a text has it if both have it. -/
  append : ∀ {text more : String}, P text → P more → P (text ++ more)

theorem textsOf_eq_flatMap (trees : List ParseTree) :
    textsOf trees = trees.flatMap ParseTree.texts := by
  induction trees with
  | nil => rfl
  | cons tree trees ih => rw [textsOf, List.flatMap_cons, ih]

/-- The texts in a child are among those of the node. -/
theorem ParseTree.texts_of_mem_children {t child : ParseTree} (h : child ∈ t.children) :
    ∀ s ∈ child.texts, s ∈ t.texts := by
  obtain ⟨kind, text, children⟩ := t
  intro s hs
  rw [texts, textsOf_eq_flatMap]
  exact List.mem_append_right _ (List.mem_flatMap.mpr ⟨child, h, hs⟩)

/-! ## Source texts as joins -/

namespace ParseTree

theorem sourceTextOf_eq_join (trees : List ParseTree) :
    sourceTextOf trees = String.join (trees.map sourceText) := by
  induction trees with
  | nil => rfl
  | cons tree trees ih => rw [sourceTextOf, ih, List.map_cons, String.join_cons]

/-- The source text of a node that has children is that of its children. -/
theorem sourceText_of_children {t : ParseTree} (h : t.children ≠ []) :
    t.sourceText = String.join (t.children.map sourceText) := by
  obtain ⟨kind, text, _ | ⟨child, children⟩⟩ := t
  · exact absurd rfl h
  · rw [sourceText, sourceTextOf_eq_join, List.map_cons, String.join_cons]

/-- **The tokens of a node cover it.** -/
theorem join_tokens (t : ParseTree) : String.join t.tokens = t.sourceText := by
  by_cases h : t.children = []
  · obtain ⟨kind, text, _⟩ := t
    subst h
    cases text with
    | none => rfl
    | some text => exact String.join_cons.trans String.append_empty
  · rw [sourceText_of_children h]
    obtain ⟨kind, text, _ | ⟨child, children⟩⟩ := t
    · exact absurd rfl h
    · rfl

/-- The tokens of a node depend on its text and on the source texts of its children. -/
theorem tokens_congr {t t' : ParseTree} (htext : t'.text = t.text)
    (hchildren : t'.children.map sourceText = t.children.map sourceText) :
    t'.tokens = t.tokens := by
  obtain ⟨kind, text, _ | ⟨child, children⟩⟩ := t
  · obtain ⟨kind', text', children'⟩ := t'
    obtain rfl := List.map_eq_nil_iff.mp hchildren
    exact congrArg Option.toList htext
  · obtain ⟨kind', text', _ | ⟨child', children'⟩⟩ := t'
    · cases hchildren
    · exact hchildren

end ParseTree

/-! ## What texts keep when they are put together -/

section SourceText

variable {P : String → Prop} (hP : KeptByAppend P)

include hP

mutual

/-- **The source text of a node is put together from the texts in it.** -/
theorem ParseTree.sourceText_of_texts : ∀ t : ParseTree, (∀ s ∈ t.texts, P s) → P t.sourceText
  | ⟨_, none, []⟩, _ => hP.empty
  | ⟨_, some text, []⟩, h => h text List.mem_cons_self
  | ⟨_, _, child :: children⟩, h => by
    rw [ParseTree.texts, List.forall_mem_append, textsOf, List.forall_mem_append] at h
    rw [ParseTree.sourceText]
    exact hP.append (ParseTree.sourceText_of_texts child h.2.1)
      (sourceTextOf_of_textsOf children h.2.2)

theorem sourceTextOf_of_textsOf : ∀ trees : List ParseTree,
    (∀ s ∈ textsOf trees, P s) → P (ParseTree.sourceTextOf trees)
  | [], _ => hP.empty
  | tree :: trees, h => by
    rw [textsOf, List.forall_mem_append] at h
    rw [ParseTree.sourceTextOf]
    exact hP.append (ParseTree.sourceText_of_texts tree h.1) (sourceTextOf_of_textsOf trees h.2)

end

end SourceText

end Offside
