import Offside.Proofs.Reading.Used

/-!
# What a reading does not use

A pruned tree is read as the same program, or with the same defect
(`ofParseTree_prune`). Whatever stands in a part of the tree that is pruned
away, be it malformed or at odds with what is kept, changes neither the program
nor the defect. What is logged on the way to a program are the choices at the
visited conditionals, and all visited nodes are kept.

Both halves are shown in one pass over the rules. Two readings **agree**
(`Reading.Agrees`) if they come to the same and the first one logs given
events, and this passes from the parts of a reading to the whole.
-/

namespace Offside

/-! ## Readings that agree -/

namespace Reading

open ParseTree

variable {α β : Type}

/-- **Two readings agree** if they come to the same, and the first one logs these
events if it comes to a value. -/
def Agrees (reading reading' : Reading α) (events : List Event) : Prop :=
  reading'.outcome = reading.outcome ∧ ∀ a, reading.outcome = .ok a → reading.run.events = events

theorem agrees_pure (a : α) : Agrees (pure a) (pure a) [] := ⟨rfl, fun _ _ => rfl⟩

theorem agrees_throw (d : Defect) (es : List Event) : Agrees (throw d : Reading α) (throw d) es :=
  ⟨rfl, nofun⟩

namespace Agrees

variable {reading reading' : Reading α} {f f' : α → Reading β} {es fs : List Event}

/-- Readings that agree may be put one after the other. -/
theorem bind (h : Agrees reading reading' es) (hf : ∀ a, Agrees (f a) (f' a) fs) :
    Agrees (reading >>= f) (reading' >>= f') (es ++ fs) := by
  constructor
  · rw [outcome_bind, outcome_bind, h.1]
    cases reading.outcome with
    | error d => rfl
    | ok a => exact (hf a).1
  · intro b hb
    rw [outcome_bind] at hb
    cases hr : reading.outcome with
    | error d =>
      rw [hr] at hb
      cases hb
    | ok a =>
      rw [hr] at hb
      rw [events_bind, h.2 a hr, hr]
      exact congrArg (es ++ ·) ((hf a).2 b hb)

theorem map (g : α → β) (h : Agrees reading reading' es) :
    Agrees (g <$> reading) (g <$> reading') es := by
  have hb := h.bind (fun a => agrees_pure (g a))
  rwa [List.append_nil, bind_pure_comp, bind_pure_comp] at hb

/-- An event that the first reading logs. -/
theorem log (e : Event) (h : Agrees reading reading' es) :
    Agrees ((liftM (Logged.log e) : Reading Unit) >>= fun _ => reading) reading' (e :: es) :=
  ⟨h.1, fun a ha => congrArg (e :: ·) (h.2 a ha)⟩

/-- An event that the other reading logs. -/
theorem log_other (e : Event) (h : Agrees reading reading' es) :
    Agrees reading ((liftM (Logged.log e) : Reading Unit) >>= fun _ => reading') es :=
  ⟨h.1, h.2⟩

end Agrees

/-- A child that is needed is read alike, or is missing in either tree. -/
theorem agrees_required {kind : String} {needed : NeededChild} {found : Option ParseTree}
    {read : ParseTree → Reading α}
    (h : ∀ t, found = some t → Agrees (read t) (read t.prune) t.choices) :
    Agrees (required kind needed (found.map read))
      (required kind needed ((found.map prune).map read)) (found.toList.flatMap choices) := by
  cases found with
  | none => exact agrees_throw _ _
  | some t =>
    rw [Option.toList_some, List.flatMap_singleton]
    exact h t rfl

/-! ## Pruned trees are read alike -/

/-- **What the readings of a node and of the pruned node agree on**, whichever of
them the parent asks for. -/
structure ReadsAlike (t : ParseTree) : Prop where
  /-- The node in a place for statements and expressions. -/
  node : Agrees (Reading.node t) (Reading.node t.prune) t.choices
  /-- All of its children, if its rule uses all of them. -/
  nodes : ∀ r, t.rule? = some r → r.uses = [.each] →
    Agrees (Reading.nodes t.children) (Reading.nodes t.prune.children) t.choices
  /-- The body among its children, if that is what its rule uses. -/
  body : t.rule? = some .conditionalElse → Agrees (bodyOf t) (bodyOf t.prune) t.choices
  /-- The node as a conditional, if its parent may read it so. -/
  conditional : t.rule? = some .conditionalElif →
    Agrees (conditionalOf t) (conditionalOf t.prune) t.choices

theorem agrees_nodes {trees : List ParseTree}
    (h : ∀ t ∈ trees, Agrees (node t) (node t.prune) t.choices) :
    Agrees (nodes trees) (nodes (trees.map prune)) (trees.flatMap choices) := by
  induction trees with
  | nil => exact agrees_pure []
  | cons t ts ih =>
    rw [List.forall_mem_cons] at h
    rw [List.map_cons, nodes, nodes, List.flatMap_cons]
    refine h.1.bind fun first => ?_
    rw [bind_pure_comp, bind_pure_comp]
    exact (ih h.2).map (first :: ·)

section Step

-- what is to be shown of a node, given its children, its rule and a use of the rule
variable {t : ParseTree} (ih : ∀ child ∈ t.children, ReadsAlike child) {r : Rule}
  (hr : t.rule? = some r)

include hr

/-- A rule that is needed is found in the pruned node, pruned. -/
theorem findRule_prune {use : Use} (huse : use ∈ r.uses) {s : Rule}
    (hneeds : use.needs t.children = [.rule s]) :
    findRule s t.prune.children = (findRule s t.children).map prune :=
  find?_prune hr huse (.rule s) (by rw [hneeds]; exact List.mem_singleton_self _)

theorem findRule_prune_of_found {use : Use} (huse : use ∈ r.uses) {s : Rule} {child : ParseTree}
    (hneeds : use.needs t.children = [.rule s]) (h : findRule s t.children = some child) :
    findRule s t.prune.children = some child.prune := by
  rw [findRule_prune hr huse hneeds, h, Option.map_some]

theorem findRule_prune_eq_none {use : Use} (huse : use ∈ r.uses) (heach : use ≠ .each) {s : Rule}
    (h : findRule s t.children = none) : findRule s t.prune.children = none :=
  find?_prune_eq_none hr huse heach (.rule s) h

/-- A terminal that is needed has its text in either tree. -/
theorem agrees_terminal {use : Use} (huse : use ∈ r.uses) {k : Terminal}
    (hneeds : use.needs t.children = [.terminal k]) :
    Agrees (terminal t.kind t.children k) (terminal t.kind t.prune.children k)
      (use.choices t.children) := by
  have hprune := find?_prune hr huse (.terminal k)
    (by rw [hneeds]; exact List.mem_singleton_self _)
  rw [Use.choices_of_needs hneeds, choices_of_find?_terminal]
  change t.prune.children.find? (·.kind == k.kind)
    = (t.children.find? (·.kind == k.kind)).map prune at hprune
  rw [terminal, terminal, hprune]
  cases hfind : t.children.find? (·.kind == k.kind) with
  | none => exact agrees_throw _ _
  | some child =>
    have hnone := rule?_eq_none_of_find?_terminal hfind
    show Agrees (pure child.sourceText) (pure child.prune.sourceText) []
    rw [prune_eq_bare (by rw [hnone]; rfl), sourceText_bare]
    exact agrees_pure _

include ih

theorem agrees_each (huses : r.uses = [.each]) :
    Agrees (nodes t.children) (nodes t.prune.children) (Use.each.choices t.children) := by
  rw [children_prune_of_each hr huses]
  exact agrees_nodes fun child hchild => (ih child hchild).node

/-- A child of a rule that uses all of its children. -/
theorem agrees_child {s : Rule} (huse : .child s ∈ r.uses) (hs : s.uses = [.each]) :
    Agrees (required t.kind (.rule s) (nodesOf s t.children))
      (required t.kind (.rule s) (nodesOf s t.prune.children))
      ((Use.child s).choices t.children) := by
  rw [nodesOf_eq_map_findRule, nodesOf_eq_map_findRule, Use.choices_of_needs rfl,
    findRule_prune hr huse rfl]
  refine agrees_required fun child hchild => ?_
  obtain ⟨hmem, hrule⟩ := of_findRule hchild
  exact (ih child hmem).nodes s hrule hs

theorem agrees_first (huse : .first ∈ r.uses) :
    Agrees (required t.kind .any (firstNode t.children))
      (required t.kind .any (firstNode t.prune.children)) (Use.first.choices t.children) := by
  have hhead (children : List ParseTree) :
      children.head? = children.find? NeededChild.any.isMetBy := by
    cases children <;> rfl
  rw [firstNode_eq_map_head?, firstNode_eq_map_head?, Use.choices_of_needs rfl, hhead, hhead,
    find?_prune hr huse .any (List.mem_singleton_self _)]
  exact agrees_required fun child hchild => (ih child (List.mem_of_find?_eq_some hchild)).node

omit ih hr in
theorem agrees_declaration (hr : t.rule? = some .declaration) :
    Agrees (declaration t.kind t.children) (declaration t.kind t.prune.children) t.choices := by
  rw [choices_of_rule hr (by decide) (by decide)]
  exact (agrees_terminal hr (.head _) rfl).bind fun ty =>
    (agrees_terminal hr (.tail _ (.head _)) rfl).bind fun name =>
      agrees_pure (Declaration.mk ty name)

omit ih in
theorem agrees_target (huse : .target ∈ r.uses) :
    Agrees (assignTarget t.kind t.children) (assignTarget t.kind t.prune.children)
      (Use.target.choices t.children) := by
  cases hd : findRule .declaration t.children with
  | none =>
    have hneeds : Use.target.needs t.children = [.terminal .varName] := by
      rw [Use.needs, hd]
      rfl
    rw [assignTarget_of_none _ hd,
      assignTarget_of_none _ (findRule_prune_eq_none hr huse (by decide) hd)]
    exact (agrees_terminal hr huse hneeds).map AssignTarget.name
  | some d =>
    have hneeds : Use.target.needs t.children = [.rule .declaration] := by
      rw [Use.needs, hd]
      rfl
    have hprune := findRule_prune_of_found hr huse hneeds hd
    rw [assignTarget_of_some _ hd, assignTarget_of_some _ hprune, Use.choices_of_found hneeds hd,
      kind_prune]
    exact (agrees_declaration (of_findRule hd).2).map AssignTarget.declaration

theorem agrees_body (huse : .body ∈ r.uses) :
    Agrees (bodyOf t) (bodyOf t.prune) (Use.body.choices t.children) := by
  rw [bodyOf, bodyOf, statementOf_eq_map_findRule, nodesOf_eq_map_findRule,
    statementOf_eq_map_findRule, nodesOf_eq_map_findRule]
  cases hs : findRule .statement t.children with
  | some s =>
    have hneeds : Use.body.needs t.children = [.rule .statement] := by
      rw [Use.needs, hs]
      rfl
    have hprune := findRule_prune_of_found hr huse hneeds hs
    rw [hprune, Use.choices_of_found hneeds hs]
    exact (ih s (of_findRule hs).1).node.map Body.single
  | none =>
    have hneeds : Use.body.needs t.children = [.rule .codeBlock] := by
      rw [Use.needs, hs]
      rfl
    rw [findRule_prune_eq_none hr huse (by decide) hs, findRule_prune hr huse hneeds]
    cases hb : findRule .codeBlock t.children with
    | none =>
      rw [Use.choices_of_not_found hneeds hb]
      exact agrees_pure Body.absent
    | some b =>
      obtain ⟨hmem, hrule⟩ := of_findRule hb
      rw [Use.choices_of_found hneeds hb]
      exact ((ih b hmem).nodes .codeBlock hrule rfl).map Body.block

/-- **The choice at a conditional is logged**, and the clause that is set aside
makes no difference. -/
theorem agrees_continuation (hrule : r = .conditional ∨ r = .conditionalElif) :
    Agrees (continuation t.kind (elifOf t.children) (elseOf t.children))
      (continuation t.kind (elifOf t.prune.children) (elseOf t.prune.children))
      (t.keptElse?.toList ++ Use.continuation.choices t.children) := by
  have huse : .continuation ∈ r.uses := by
    obtain rfl | rfl := hrule <;> exact .head _
  rw [elseOf_eq_map_findRule, elifOf_eq_map_findRule, elseOf_eq_map_findRule,
    elifOf_eq_map_findRule]
  cases he : findRule .conditionalElse t.children with
  | some final =>
    have hneeds : Use.continuation.needs t.children = [.rule .conditionalElse] := by
      rw [Use.needs, he]
      rfl
    have hprune := findRule_prune_of_found hr huse hneeds he
    obtain ⟨hmem, hfinal⟩ := of_findRule he
    have hbody := ((ih final hmem).body hfinal).map Continuation.otherwise
    -- whether the pruned node has an `elif` does not matter
    have hagrees : Agrees (Continuation.otherwise <$> bodyOf final)
        (continuation t.kind ((findRule .conditionalElif t.prune.children).map fun branch =>
          Conditional.toContinuation <$> conditionalOf branch) (some (bodyOf final.prune)))
        final.choices := by
      cases findRule .conditionalElif t.prune.children with
      | none => exact hbody
      | some branch => exact hbody.log_other (.keptElse t.kind)
    rw [hprune, Use.choices_of_found hneeds he, keptElse?, he, hr]
    cases findRule .conditionalElif t.children with
    | none =>
      rw [if_neg (by simp)]
      exact hagrees
    | some branch =>
      rw [if_pos ⟨hrule.imp (congrArg some) (congrArg some), rfl, rfl⟩]
      exact hagrees.log (.keptElse t.kind)
  | none =>
    have hneeds : Use.continuation.needs t.children = [.rule .conditionalElif] := by
      rw [Use.needs, he]
      rfl
    have hkept : t.keptElse? = none := if_neg fun h => by simp [he] at h
    rw [findRule_prune_eq_none hr huse (by decide) he, findRule_prune hr huse hneeds, hkept]
    cases hb : findRule .conditionalElif t.children with
    | none =>
      rw [Use.choices_of_not_found hneeds hb]
      exact agrees_pure Continuation.done
    | some branch =>
      obtain ⟨hmem, hbranch⟩ := of_findRule hb
      rw [Use.choices_of_found hneeds hb]
      exact ((ih branch hmem).conditional hbranch).map Conditional.toContinuation

theorem agrees_conditional (hrule : r = .conditional ∨ r = .conditionalElif) :
    Agrees (conditionalOf t) (conditionalOf t.prune) t.choices := by
  have hcontinuation := agrees_continuation ih hr hrule
  have hchoices : t.choices = (t.keptElse?.toList ++ Use.continuation.choices t.children)
      ++ ((Use.child .expression).choices t.children ++ (Use.body.choices t.children ++ [])) := by
    rw [choices_eq, hr, List.append_assoc]
    obtain rfl | rfl := hrule <;> rfl
  have hexpression : .child .expression ∈ r.uses := by
    obtain rfl | rfl := hrule <;> exact .tail _ (.head _)
  have hbody : .body ∈ r.uses := by
    obtain rfl | rfl := hrule <;> exact .tail _ (.tail _ (.head _))
  rw [conditionalOf, conditionalOf, conditional_eq_bind, conditional_eq_bind, kind_prune, hchoices]
  exact hcontinuation.bind fun next => (agrees_child ih hr hexpression rfl).bind fun condition =>
    (agrees_body ih hr hbody).bind fun body => agrees_pure (Conditional.mk condition body next)

/-- **A node of a rule is read alike.** -/
theorem agrees_node_of_rule : Agrees (node t) (node t.prune) t.choices := by
  have hterminal (k : Terminal) (huse : .terminal k ∈ r.uses) := agrees_terminal hr huse rfl
  have hchild (s : Rule) (huse : .child s ∈ r.uses) := agrees_child ih hr huse
  have heach := agrees_each ih hr
  have hfirst := agrees_first ih hr
  have hdeclaration := agrees_declaration (t := t)
  have htarget := agrees_target (t := t) hr
  have hbody := agrees_body ih hr
  have hconditional := agrees_conditional ih hr
  have htokens (huses : r.uses = []) : t.prune.tokens = t.tokens := by
    rw [prune_eq_bare (by rw [hr]; exact huses), tokens_bare]
  have hchoices := choices_of_rule hr
  have hkind := kind_prune t
  generalize t.prune = pruned at *
  obtain ⟨kind, text, children⟩ := t
  obtain ⟨_, text', children'⟩ := pruned
  obtain rfl : _ = kind := hkind
  rename_i kind
  have hk : Rule.ofKind? kind = some r := hr
  unfold node
  rw [hk]
  -- the binds of a reading come in the order of the uses of its rule
  cases r with
  | start | conditionalElif | conditionalElse | args | argsCall => exact agrees_throw _ _
  | statements | controlConstructs | codeBlock | expression =>
    rw [hchoices (by decide) (by decide), Rule.uses, List.flatMap_singleton]
    exact (heach rfl).map _
  | statement | controlConstruct | cycle =>
    rw [hchoices (by decide) (by decide), Rule.uses, List.flatMap_singleton]
    exact (hfirst (.head _)).map _
  | declaration => exact (hdeclaration hr).map Node.declaration
  | operator =>
    rw [hchoices (by decide) (by decide), htokens rfl]
    exact agrees_pure _
  | primaryLiteral =>
    rw [hchoices (by decide) (by decide), htokens rfl]
    exact agrees_pure _
  | returnExpr =>
    rw [hchoices (by decide) (by decide), Rule.uses, List.flatMap_singleton]
    exact (hchild .expression (.head _) rfl).map _
  | assignment =>
    rw [hchoices (by decide) (by decide)]
    exact (htarget (.head _)).bind fun target =>
      (hterminal .assignmentOperator (.tail _ (.head _))).bind fun op =>
        (hchild .expression (.tail _ (.tail _ (.head _))) rfl).bind fun value =>
          agrees_pure (Node.assignment target op value)
  | conditional => exact (hconditional (.inl rfl)).map Conditional.toNode
  | whileCycle =>
    rw [hchoices (by decide) (by decide)]
    exact (hchild .expression (.head _) rfl).bind fun condition =>
      (hbody (.tail _ (.head _))).bind fun body => agrees_pure (Node.whileLoop condition body)
  | method =>
    rw [hchoices (by decide) (by decide)]
    exact (hterminal .type (.head _)).bind fun returnType =>
      (hterminal .varName (.tail _ (.head _))).bind fun name =>
        (hchild .args (.tail _ (.tail _ (.head _))) rfl).bind fun args =>
          (hchild .codeBlock (.tail _ (.tail _ (.tail _ (.head _)))) rfl).bind fun block =>
            agrees_pure (Node.method returnType name args block)
  | funcCall =>
    rw [hchoices (by decide) (by decide)]
    exact (hterminal .varName (.head _)).bind fun name =>
      (hchild .argsCall (.tail _ (.head _)) rfl).bind fun args =>
        agrees_pure (Node.call name args)

end Step

theorem agrees_node (t : ParseTree) (ih : ∀ child ∈ t.children, ReadsAlike child) :
    Agrees (node t) (node t.prune) t.choices := by
  cases hr : t.rule? with
  | some r => exact agrees_node_of_rule ih hr
  | none =>
    rw [prune_eq_bare (by rw [hr]; rfl), choices_of_rule?_eq_none hr]
    obtain ⟨kind, text, children⟩ := t
    have hk : Rule.ofKind? kind = none := hr
    cases children with
    | nil =>
      rw [bare, node, hk]
      exact agrees_pure _
    | cons child children =>
      rw [bare]
      unfold node
      rw [hk]
      exact agrees_throw _ _

/-- **Every pruned tree is read alike.** -/
theorem readsAlike (t : ParseTree) : ReadsAlike t := by
  induction t using ParseTree.forall_of_children with | step t ih
  exact
    { node := agrees_node t ih
      nodes := fun r hr huses => by
        have h := agrees_each ih hr huses
        rwa [← choices_of_use hr huses] at h
      body := fun hr => by
        have h := agrees_body ih hr (.head _)
        rwa [← choices_of_use hr rfl] at h
      conditional := fun hr => agrees_conditional ih hr (.inr rfl) }

/-- A pruned tree is read as the program that the tree is read as. -/
theorem agrees_ofParseTree (t : ParseTree) :
    Agrees (Program.ofParseTree t) (Program.ofParseTree t.prune) t.choices := by
  unfold Program.ofParseTree
  rw [rule?_prune, kind_prune]
  by_cases h : t.rule? = some .start
  · rw [if_pos h, if_pos h]
    exact ((readsAlike t).nodes .start h rfl).map Program.mk
  · rw [if_neg h, if_neg h]
    exact agrees_throw _ _

end Reading

/-- **What a reading does not use does not matter.** A pruned tree is read as the
same program, or with the same defect. If there is a program, the events on the
way to it are the choices at the nodes that are visited, in the order in which
they are visited, and all that is visited is kept. -/
theorem ofParseTree_prune (t : ParseTree) :
    (Program.ofParseTree t.prune).outcome = (Program.ofParseTree t).outcome
      ∧ (∀ p, (Program.ofParseTree t).outcome = .ok p →
        (Program.ofParseTree t).run.events = t.visited.filterMap ParseTree.keptElse?)
      ∧ t.prune.visited = t.visited.map ParseTree.prune := by
  obtain ⟨houtcome, hevents⟩ := Reading.agrees_ofParseTree t
  exact ⟨houtcome, hevents, ParseTree.visited_prune t⟩

/-- A conditional with more than it uses: an `elif` without a condition besides
its `else`, a second condition, a text of its own, and a block besides the
statement of its `else`. -/
def overfullTree : ParseTree :=
  .rule "start" [⟨"conditional", some "idle",
    [.rule "conditionalElif" [],
      .rule "expression" [.rule "primaryLiteral" [.leaf "ID" "a"]],
      .rule "expression" [.rule "broken" [.leaf "ID" "b"]],
      .rule "conditionalElse"
        [.rule "codeBlock" [], .rule "statement" [.leaf "ID" "c", .rule "start" []]]]⟩]

/-- None of that is read, and the choice of the `else` is logged. -/
theorem overfullTree_ofParseTree_prune :
    (Program.ofParseTree overfullTree.prune).outcome = .ok ⟨[.conditional [.literal ["a"]] .absent
        (.otherwise (.single (.wrapper .statement (.token "c"))))]⟩
      ∧ (Program.ofParseTree overfullTree).run.events = [.keptElse "conditional"] := by
  obtain ⟨houtcome, hevents, -⟩ := ofParseTree_prune overfullTree
  have hok : (Program.ofParseTree overfullTree).outcome = .ok ⟨[.conditional [.literal ["a"]] .absent
      (.otherwise (.single (.wrapper .statement (.token "c"))))]⟩ := by rfl
  have hchoices : overfullTree.visited.filterMap ParseTree.keptElse? = [.keptElse "conditional"] := by
    decide +kernel
  exact ⟨houtcome.trans hok, (hevents _ hok).trans hchoices⟩

end Offside
