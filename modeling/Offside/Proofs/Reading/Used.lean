import Mathlib.Data.List.Basic
import Offside.Proofs.Reading.Walk

/-!
# What is used of a parse tree

A rule looks only at some of its children, and the text of a node with children
is never looked at. So a parse tree can be **pruned** (`ParseTree.prune`). At
every node the children that its rule does not use are taken away, and so is
the text that does not count. What is left is, for each need of the rule, the
first child that meets it (`keepFirst`), and which child that is does not
change when the others are gone (`find?_keepFirst`). Two preferences are needs
that depend on the children. Where there is an `else`, no `elif` is needed,
and where there is a statement, no block.

The nodes that are looked at are **visited** (`ParseTree.visited`), a node
before the children that its rule uses. Visiting is pruned with the tree
(`ParseTree.visited_prune`), so that nothing is visited that is not kept. A
visited conditional with both an `else` and an `elif` makes a **choice**
(`ParseTree.keptElse?`).
-/

namespace Offside

/-! ## Needs and the children that meet them -/

/-- Whether a child meets a need. -/
def NeededChild.isMetBy : NeededChild → ParseTree → Bool
  | rule r, child => child.rule? = some r
  | terminal t, child => child.kind == t.kind
  | any, _ => true

/-- **For each need the first child that meets it**, in the order of the
children. -/
def keepFirst : List NeededChild → List ParseTree → List ParseTree
  | _, [] => []
  | needs, child :: children =>
    if needs.any (·.isMetBy child) then
      child :: keepFirst (needs.filter fun need => !need.isMetBy child) children
    else keepFirst needs children

/-- **What a use needs**, given the children. A child that would be passed over
for another one is not needed. -/
def Use.needs (children : List ParseTree) : Use → List NeededChild
  | each => []
  | first => [.any]
  | terminal t => [.terminal t]
  | child r => [.rule r]
  | target =>
    if (Reading.findRule .declaration children).isSome then [.rule .declaration]
    else [.terminal .varName]
  | body =>
    if (Reading.findRule .statement children).isSome then [.rule .statement]
    else [.rule .codeBlock]
  | continuation =>
    if (Reading.findRule .conditionalElse children).isSome then [.rule .conditionalElse]
    else [.rule .conditionalElif]

/-- **Whoever is sought is found where the first of each are kept.** -/
theorem find?_keepFirst {need : NeededChild} {needs : List NeededChild} (hneed : need ∈ needs)
    (children : List ParseTree) :
    (keepFirst needs children).find? need.isMetBy = children.find? need.isMetBy := by
  induction children generalizing needs with
  | nil => rfl
  | cons child children ih =>
    rw [keepFirst]
    cases hmet : need.isMetBy child with
    | true =>
      have hany : needs.any (·.isMetBy child) = true := List.any_eq_true.mpr ⟨need, hneed, hmet⟩
      rw [if_pos hany, List.find?_cons_of_pos hmet, List.find?_cons_of_pos hmet]
    | false =>
      have hne : ¬ need.isMetBy child = true := Bool.eq_false_iff.mp hmet
      rw [List.find?_cons_of_neg hne]
      split
      · -- the need is still there after others were met
        rw [List.find?_cons_of_neg hne]
        exact ih (List.mem_filter.mpr ⟨hneed, by rw [hmet]; rfl⟩)
      · exact ih hneed

theorem mem_of_mem_keepFirst {child : ParseTree} {needs : List NeededChild}
    {children : List ParseTree} (h : child ∈ keepFirst needs children) : child ∈ children := by
  induction children generalizing needs with
  | nil => exact h
  | cons first rest ih =>
    rw [keepFirst] at h
    split at h
    · exact List.mem_cons.mpr ((List.mem_cons.mp h).imp id ih)
    · exact List.mem_cons_of_mem first (ih h)

/-! ## Pruning -/

namespace ParseTree

mutual

/-- A node without the texts that do not count: those of nodes with children. -/
def bare : ParseTree → ParseTree
  | ⟨kind, text, []⟩ => ⟨kind, text, []⟩
  | ⟨kind, _, child :: children⟩ => ⟨kind, none, child.bare :: bareEach children⟩

/-- Nodes without the texts that do not count. -/
def bareEach : List ParseTree → List ParseTree
  | [] => []
  | tree :: trees => tree.bare :: bareEach trees

end

mutual

/-- **A tree without what its reading does not use.** Under an operator, a
literal and a node of no rule all that may count is the source text. -/
def prune : ParseTree → ParseTree
  | ⟨kind, text, children⟩ =>
    ⟨kind, if children.isEmpty then text else none,
      match (Rule.ofKind? kind).elim [] Rule.uses with
      | [] => bareEach children
      | [.each] => pruneEach children
      | uses => keepFirst (uses.flatMap (Use.needs children)) (pruneEach children)⟩

/-- Trees without what their readings do not use. -/
def pruneEach : List ParseTree → List ParseTree
  | [] => []
  | tree :: trees => tree.prune :: pruneEach trees

end

theorem bareEach_eq_map (trees : List ParseTree) : bareEach trees = trees.map bare := by
  induction trees with
  | nil => rfl
  | cons tree trees ih => rw [bareEach, List.map_cons, ih]

theorem pruneEach_eq_map (trees : List ParseTree) : pruneEach trees = trees.map prune := by
  induction trees with
  | nil => rfl
  | cons tree trees ih => rw [pruneEach, List.map_cons, ih]

mutual

/-- The source text of a node is that of its leaves. -/
@[simp] theorem sourceText_bare : ∀ t : ParseTree, t.bare.sourceText = t.sourceText
  | ⟨_, _, []⟩ => rfl
  | ⟨_, _, child :: children⟩ => by
    rw [bare, sourceText, sourceText, sourceText_bare child, sourceTextOf_bareEach children]

theorem sourceTextOf_bareEach : ∀ trees : List ParseTree,
    sourceTextOf (bareEach trees) = sourceTextOf trees
  | [] => rfl
  | tree :: trees => by
    rw [bareEach, sourceTextOf, sourceTextOf, sourceText_bare tree, sourceTextOf_bareEach trees]

end

@[simp] theorem kind_prune (t : ParseTree) : t.prune.kind = t.kind := by
  obtain ⟨kind, text, children⟩ := t
  rw [prune]

@[simp] theorem rule?_prune (t : ParseTree) : t.prune.rule? = t.rule? := by
  rw [rule?, kind_prune, rule?]

/-- What meets a need still meets it when it is pruned. -/
@[simp] theorem isMetBy_prune (need : NeededChild) (t : ParseTree) :
    need.isMetBy t.prune = need.isMetBy t := by
  cases need with
  | rule r => rw [NeededChild.isMetBy, NeededChild.isMetBy, rule?_prune]
  | terminal k => rw [NeededChild.isMetBy, NeededChild.isMetBy, kind_prune]
  | any => rfl

theorem find?_map_prune (need : NeededChild) (trees : List ParseTree) :
    (trees.map prune).find? need.isMetBy = (trees.find? need.isMetBy).map prune := by
  rw [List.find?_map]
  refine congrArg (Option.map prune <| List.find? · trees) (funext fun t => ?_)
  exact isMetBy_prune need t

/-- A node that uses no child is read for its source text. -/
theorem prune_eq_bare {t : ParseTree} (h : t.rule?.elim [] Rule.uses = []) : t.prune = t.bare := by
  obtain ⟨kind, text, children⟩ := t
  have hk : (Rule.ofKind? kind).elim [] Rule.uses = [] := h
  rw [prune, hk]
  cases children with
  | nil => rfl
  | cons child children => rw [bare, bareEach]; rfl

theorem tokens_bare (t : ParseTree) : t.bare.tokens = t.tokens := by
  obtain ⟨kind, text, _ | ⟨child, children⟩⟩ := t
  · rfl
  · rw [bare, ← bareEach, bareEach_eq_map]
    show ((child :: children).map bare).map sourceText = (child :: children).map sourceText
    rw [List.map_map]
    exact List.map_congr_left fun tree _ => sourceText_bare tree

section Children

variable {t : ParseTree} {r : Rule} (hr : t.rule? = some r)

include hr

/-- A rule that uses every child keeps every child. -/
theorem children_prune_of_each (h : r.uses = [.each]) :
    t.prune.children = t.children.map prune := by
  obtain ⟨kind, text, children⟩ := t
  have hk : Rule.ofKind? kind = some r := hr
  rw [prune, hk, Option.elim_some, h, ← pruneEach_eq_map]

/-- The other rules keep the first child for each of their needs. -/
theorem children_prune_of_use {use : Use} (huse : use ∈ r.uses) (heach : use ≠ .each) :
    t.prune.children
      = keepFirst (r.uses.flatMap (Use.needs t.children)) (t.children.map prune) := by
  obtain ⟨kind, text, children⟩ := t
  have hk : Rule.ofKind? kind = some r := hr
  rw [prune, hk, Option.elim_some, ← pruneEach_eq_map]
  show (match r.uses with | [] => _ | [.each] => _ | uses => _) = _
  split
  · rename_i hnil
    rw [hnil] at huse
    exact absurd huse List.not_mem_nil
  · rename_i hsingle
    rw [hsingle] at huse
    exact absurd (List.mem_singleton.mp huse) heach
  · rfl

/-- **What a rule needs it finds in the pruned node**, pruned. -/
theorem find?_prune {use : Use} (huse : use ∈ r.uses) (need : NeededChild)
    (hneed : need ∈ use.needs t.children) :
    t.prune.children.find? need.isMetBy = (t.children.find? need.isMetBy).map prune := by
  have heach : use ≠ .each := by
    rintro rfl
    exact absurd hneed List.not_mem_nil
  rw [children_prune_of_use hr huse heach,
    find?_keepFirst (List.mem_flatMap.mpr ⟨use, huse, hneed⟩), find?_map_prune]

/-- What is not there is not there after pruning. -/
theorem find?_prune_eq_none {use : Use} (huse : use ∈ r.uses) (heach : use ≠ .each)
    (need : NeededChild) (h : t.children.find? need.isMetBy = none) :
    t.prune.children.find? need.isMetBy = none := by
  rw [children_prune_of_use hr huse heach, List.find?_eq_none]
  intro child hchild
  obtain ⟨original, horiginal, rfl⟩ := List.mem_map.mp (mem_of_mem_keepFirst hchild)
  rw [isMetBy_prune]
  exact List.find?_eq_none.mp h original horiginal

/-- **Pruning does not change what is needed.** -/
theorem needs_prune {use : Use} (huse : use ∈ r.uses) :
    use.needs t.prune.children = use.needs t.children := by
  have hfind (rule : Rule) (alternative : NeededChild) (heach : use ≠ .each)
      (hneeds : use.needs t.children
        = if (Reading.findRule rule t.children).isSome then [.rule rule] else [alternative]) :
      (Reading.findRule rule t.prune.children).isSome
        = (Reading.findRule rule t.children).isSome := by
    cases h : Reading.findRule rule t.children with
    | none => exact congrArg Option.isSome (find?_prune_eq_none hr huse heach (.rule rule) h)
    | some child =>
      have hneed : .rule rule ∈ use.needs t.children := by
        rw [hneeds, h]
        exact List.mem_singleton_self _
      refine (congrArg Option.isSome (find?_prune hr huse _ hneed)).trans ?_
      rw [Option.isSome_map]
      exact congrArg Option.isSome h
  cases use with
  | each | first | terminal _ | child _ => rfl
  | target => rw [Use.needs, Use.needs, hfind .declaration _ (by decide) rfl]
  | body => rw [Use.needs, Use.needs, hfind .statement _ (by decide) rfl]
  | continuation => rw [Use.needs, Use.needs, hfind .conditionalElse _ (by decide) rfl]

end Children

end ParseTree

/-! ## Visiting -/

/-- **The children that a use looks at**, each with whatever is attached to
it. -/
def Use.used {α : Type} (tree : α → ParseTree) (children : List α) (use : Use) : List α :=
  if use = .each then children
  else (use.needs (children.map tree)).flatMap fun need =>
    (children.find? fun child => need.isMetBy (tree child)).toList

namespace ParseTree

mutual

/-- **The nodes that are visited from a node on**: the node, and then from each
child on that its rule uses, in the order of the uses. -/
def visited : ParseTree → List ParseTree
  | ⟨kind, text, children⟩ =>
    ⟨kind, text, children⟩ :: ((Rule.ofKind? kind).elim [] Rule.uses).flatMap fun use =>
      (use.used Prod.fst (visitedEach children)).flatMap Prod.snd

/-- Every node, with the nodes that are visited from it on. -/
def visitedEach : List ParseTree → List (ParseTree × List ParseTree)
  | [] => []
  | tree :: trees => (tree, tree.visited) :: visitedEach trees

end

/-- **The choice that is made at a conditional** with both an `elif` and an
`else`: the `else` is kept. -/
def keptElse? (t : ParseTree) : Option Event :=
  if (t.rule? = some .conditional ∨ t.rule? = some .conditionalElif)
      ∧ (Reading.findRule .conditionalElif t.children).isSome
      ∧ (Reading.findRule .conditionalElse t.children).isSome then
    some (.keptElse t.kind)
  else none

/-- **The choices made from a node on**, in the order in which the nodes are
visited. -/
def choices (t : ParseTree) : List Event := t.visited.filterMap keptElse?

theorem visitedEach_eq_map (trees : List ParseTree) :
    visitedEach trees = trees.map fun t => (t, t.visited) := by
  induction trees with
  | nil => rfl
  | cons tree trees ih => rw [visitedEach, List.map_cons, ih]

end ParseTree

/-- The children that are used do not depend on what is attached to them. -/
theorem Use.used_map {α β : Type} (use : Use) (tree : β → ParseTree) (f : α → β)
    (children : List α) :
    use.used tree (children.map f) = (use.used (tree ∘ f) children).map f := by
  unfold used
  split
  · rfl
  · rw [List.map_map, List.map_flatMap]
    refine List.flatMap_congr fun need _ => ?_
    rw [List.find?_map, ← Option.toList_map]
    rfl

namespace ParseTree

/-- The nodes that are visited from a node on. -/
theorem visited_eq (t : ParseTree) :
    t.visited = t :: (t.rule?.elim [] Rule.uses).flatMap fun use =>
      (use.used id t.children).flatMap visited := by
  obtain ⟨kind, text, children⟩ := t
  rw [visited, visitedEach_eq_map]
  refine congrArg (_ :: ·) (List.flatMap_congr fun use _ => ?_)
  rw [Use.used_map, List.flatMap_map]
  rfl

/-- What is used is among the children. -/
theorem mem_of_mem_used {use : Use} {children : List ParseTree} {child : ParseTree}
    (h : child ∈ use.used id children) : child ∈ children := by
  unfold Use.used at h
  split at h
  · exact h
  · obtain ⟨need, -, hfound⟩ := List.mem_flatMap.mp h
    exact List.mem_of_find?_eq_some (Option.mem_toList.mp hfound)

/-- **The pruned node uses the same children**, pruned. -/
theorem used_prune {t : ParseTree} {r : Rule} (hr : t.rule? = some r) {use : Use}
    (huse : use ∈ r.uses) :
    use.used id t.prune.children = (use.used id t.children).map prune := by
  by_cases heach : use = .each
  · subst heach
    have huses : r.uses = [.each] := by
      cases r <;> first | rfl | exact absurd huse (by decide)
    exact children_prune_of_each hr huses
  · rw [Use.used, Use.used, if_neg heach, if_neg heach, List.map_id, List.map_id,
      needs_prune hr huse, List.map_flatMap]
    refine List.flatMap_congr fun need hneed => ?_
    rw [← Option.toList_map]
    exact congrArg Option.toList (find?_prune hr huse need hneed)

/-- **The pruned tree is visited as the tree is.** -/
theorem visited_prune (t : ParseTree) : t.prune.visited = t.visited.map prune := by
  induction t using ParseTree.forall_of_children with | step t ih
  rw [visited_eq, visited_eq t, rule?_prune, List.map_cons, List.map_flatMap]
  refine congrArg (_ :: ·) (List.flatMap_congr fun use huse => ?_)
  cases hr : t.rule? with
  | none =>
    rw [hr] at huse
    exact absurd huse List.not_mem_nil
  | some r =>
    rw [hr] at huse
    rw [used_prune hr huse, List.flatMap_map, List.map_flatMap]
    exact List.flatMap_congr fun child hchild => ih child (mem_of_mem_used hchild)

end ParseTree

/-! ## The choices of a node -/

/-- The choices made from the children on that a use looks at. -/
def Use.choices (children : List ParseTree) (use : Use) : List Event :=
  (use.used id children).flatMap ParseTree.choices

namespace ParseTree

variable {t : ParseTree} {r : Rule}

/-- **A choice at the node comes before the choices below it.** -/
theorem choices_eq (t : ParseTree) :
    t.choices = t.keptElse?.toList
      ++ (t.rule?.elim [] Rule.uses).flatMap (Use.choices t.children) := by
  have hbelow : ((t.rule?.elim [] Rule.uses).flatMap fun use =>
      (use.used id t.children).flatMap visited).filterMap keptElse?
      = (t.rule?.elim [] Rule.uses).flatMap (Use.choices t.children) := by
    rw [List.filterMap_flatMap]
    refine List.flatMap_congr fun use _ => ?_
    rw [List.filterMap_flatMap]
    rfl
  rw [choices, visited_eq, ← hbelow]
  cases h : t.keptElse? with
  | none => exact List.filterMap_cons_none h
  | some e => exact List.filterMap_cons_some h

/-- Choices are made at conditionals only. -/
theorem keptElse?_eq_none (h : t.rule? ≠ some .conditional) (helif : t.rule? ≠ some .conditionalElif) :
    t.keptElse? = none :=
  if_neg fun ⟨hrule, _⟩ => hrule.elim h helif

theorem choices_of_rule (hr : t.rule? = some r) (h : r ≠ .conditional)
    (helif : r ≠ .conditionalElif) : t.choices = r.uses.flatMap (Use.choices t.children) := by
  rw [choices_eq, keptElse?_eq_none (by simpa [hr]) (by simpa [hr]), hr]
  rfl

/-- The choices of a node whose rule makes a single use of its children. -/
theorem choices_of_use {use : Use} (hr : t.rule? = some r) (huses : r.uses = [use]) :
    t.choices = use.choices t.children := by
  rw [choices_of_rule hr, huses, List.flatMap_singleton]
  all_goals
    rintro rfl
    cases huses

/-- No choice is made from a node of no rule on. -/
theorem choices_of_rule?_eq_none (h : t.rule? = none) : t.choices = [] := by
  rw [choices_eq, keptElse?_eq_none (by simp [h]) (by simp [h]), h]
  rfl

end ParseTree

/-- The children that a single need is met by. -/
theorem Use.choices_of_needs {use : Use} {children : List ParseTree} {need : NeededChild}
    (h : use.needs children = [need]) :
    use.choices children
      = (children.find? need.isMetBy).toList.flatMap ParseTree.choices := by
  have heach : use ≠ .each := by
    rintro rfl
    cases h
  rw [choices, used, if_neg heach, List.map_id, h, List.flatMap_singleton]
  rfl

/-- The child that a single need is met by. -/
theorem Use.choices_of_found {use : Use} {children : List ParseTree} {r : Rule} {child : ParseTree}
    (hneeds : use.needs children = [.rule r]) (h : Reading.findRule r children = some child) :
    use.choices children = child.choices := by
  have hfind : children.find? (NeededChild.rule r).isMetBy = some child := h
  rw [choices_of_needs hneeds, hfind, Option.toList_some, List.flatMap_singleton]

theorem Use.choices_of_not_found {use : Use} {children : List ParseTree} {r : Rule}
    (hneeds : use.needs children = [.rule r]) (h : Reading.findRule r children = none) :
    use.choices children = [] := by
  have hfind : children.find? (NeededChild.rule r).isMetBy = none := h
  rw [choices_of_needs hneeds, hfind]
  rfl

/-- A terminal is of no rule. -/
theorem rule?_eq_none_of_find?_terminal {children : List ParseTree} {k : Terminal}
    {child : ParseTree} (h : children.find? (NeededChild.terminal k).isMetBy = some child) :
    child.rule? = none := by
  have hmet := List.find?_some h
  have hkind : child.kind = k.kind := eq_of_beq hmet
  rw [ParseTree.rule?, hkind, Rule.ofKind?_terminal]

/-- No choice is made at a terminal. -/
theorem choices_of_find?_terminal (children : List ParseTree) (k : Terminal) :
    (children.find? (NeededChild.terminal k).isMetBy).toList.flatMap ParseTree.choices = [] := by
  cases h : children.find? (NeededChild.terminal k).isMetBy with
  | none => rfl
  | some child =>
    rw [Option.toList_some, List.flatMap_singleton,
      ParseTree.choices_of_rule?_eq_none (rule?_eq_none_of_find?_terminal h)]

end Offside
