import Offside.Proofs.Reading.Outcome

/-!
# All defects of a parse tree

A reading ends at the first defect it meets. What a parse tree has to be like
to be read, and which of its defects is the first, is better said by a check
that does not end: a **walk** that goes from the root to the children that
each rule uses and collects every defect on its way.

What a rule uses is a table (`Rule.uses`), and what each use asks of the
children is said once for all rules (`Use.defects`). The walk itself is a fold
over the tree. It hands every child upwards with the defects met from it on,
and a use selects among the children without knowing how they were walked.

`ofParseTree_outcome` says that a tree is read as a program if and only if
the walk meets no defect, and that otherwise the reading ends with the first
defect that the walk meets. What makes the two agree is that a reading and a
list of defects can be put together in the same ways: one after the other
(`Reports.bind`), and by a choice of a child.
-/

namespace Offside

/-! ## What a rule uses -/

/-- **A use that a rule makes of its children.** -/
inductive Use where
  /-- Every child. -/
  | each
  /-- The first child, which has to be there. -/
  | first
  /-- The first child that is this terminal, which has to be there. -/
  | terminal (t : Terminal)
  /-- The first child that is of this rule, which has to be there. -/
  | child (r : Rule)
  /-- The first declaration, or the first name if there is none. -/
  | target
  /-- The first statement, or the first block if there is none. -/
  | body
  /-- The first `else`, or the first `elif` if there is none. -/
  | continuation
  deriving Repr, DecidableEq

/-- **What a rule uses of its children**, in the order of use. -/
def Rule.uses : Rule → List Use
  | start | statements | controlConstructs | codeBlock | expression | args | argsCall => [.each]
  | statement | controlConstruct | cycle => [.first]
  | declaration => [.terminal .type, .terminal .varName]
  | assignment => [.target, .terminal .assignmentOperator, .child .expression]
  | operator | primaryLiteral => []
  | conditional | conditionalElif => [.continuation, .child .expression, .body]
  | conditionalElse => [.body]
  | whileCycle => [.child .expression, .body]
  | method => [.terminal .type, .terminal .varName, .child .args, .child .codeBlock]
  | returnExpr => [.child .expression]
  | funcCall => [.terminal .varName, .child .argsCall]

/-- Whether a rule has a meaning under its parent only. -/
def Rule.needsParent : Rule → Bool
  | start | conditionalElif | conditionalElse | args | argsCall => true
  | _ => false

/-! ## The walk -/

/-- A node with the defects met from it on. -/
structure Walked where
  /-- The node. -/
  tree : ParseTree
  /-- The defects met in it and below it. -/
  defects : List Defect

namespace Walked

/-- The defects of a node in a place for statements and expressions. -/
def inPlace (w : Walked) : List Defect :=
  if w.tree.rule?.any Rule.needsParent then .misplaced w.tree.kind :: w.defects else w.defects

/-- The first node that is of a rule. -/
def find (r : Rule) (children : List Walked) : Option Walked :=
  children.find? (·.tree.rule? = some r)

end Walked

/-- A terminal that is needed: it is there, or missing. -/
def terminalDefects (kind : String) (children : List Walked) (t : Terminal) : List Defect :=
  if children.any (·.tree.kind == t.kind) then [] else [.missingChild kind (.terminal t)]

/-- **The defects of a node as far as one use goes**: a child that is missing,
or what is met in the children that are used. -/
def Use.defects (kind : String) (children : List Walked) : Use → List Defect
  | each => children.flatMap Walked.inPlace
  | first => (children.head?.map Walked.inPlace).getD [.missingChild kind .any]
  | terminal t => terminalDefects kind children t
  | child r =>
    ((Walked.find r children).map Walked.defects).getD [.missingChild kind (.rule r)]
  | target =>
    ((Walked.find .declaration children).map Walked.defects).getD
      (terminalDefects kind children .varName)
  | body =>
    (((Walked.find .statement children).or (Walked.find .codeBlock children)).map
      Walked.defects).getD []
  | continuation =>
    (((Walked.find .conditionalElse children).or (Walked.find .conditionalElif children)).map
      Walked.defects).getD []

mutual

/-- **The defects that a walk meets from a node on**, in the order in which
they are met. -/
def ParseTree.walk : ParseTree → List Defect
  | ⟨kind, _, children⟩ =>
    match Rule.ofKind? kind with
    | none => if children.isEmpty then [] else [.unknownRule kind]
    | some r => r.uses.flatMap (Use.defects kind (walkEach children))

/-- Every node, with the defects met from it on. -/
def walkEach : List ParseTree → List Walked
  | [] => []
  | tree :: trees => ⟨tree, tree.walk⟩ :: walkEach trees

end

/-- **All defects of a parse tree** that should be a whole program. -/
def ParseTree.defects (t : ParseTree) : List Defect :=
  if t.rule? = some .start then t.walk else .notStart t.kind :: t.walk

theorem walkEach_eq_map (trees : List ParseTree) :
    walkEach trees = trees.map (fun t => ⟨t, t.walk⟩) := by
  induction trees with
  | nil => rfl
  | cons tree trees ih => rw [walkEach, List.map_cons, ih]

/-- Looking a child up does not depend on how the children were walked. -/
theorem find_walkEach (r : Rule) (children : List ParseTree) :
    Walked.find r (walkEach children)
      = (Reading.findRule r children).map (fun t => ⟨t, t.walk⟩) := by
  unfold Walked.find Reading.findRule
  rw [walkEach_eq_map, List.find?_map]
  rfl

/-- The walk from a node whose rule is known. -/
theorem ParseTree.walk_of_rule {t : ParseTree} {r : Rule} (h : t.rule? = some r) :
    t.walk = r.uses.flatMap (Use.defects t.kind (walkEach t.children)) := by
  obtain ⟨kind, text, children⟩ := t
  have hr : Rule.ofKind? kind = some r := h
  rw [walk, hr]

/-- The walk from a node whose rule makes a single use of its children. -/
theorem ParseTree.walk_of_use {t : ParseTree} {r : Rule} {use : Use} (h : t.rule? = some r)
    (hr : r.uses = [use]) : t.walk = use.defects t.kind (walkEach t.children) := by
  rw [walk_of_rule h, hr, List.flatMap_singleton]

/-! ## Readings that report defects -/

namespace Reading

variable {α β : Type}

/-- The defect that ends a reading. -/
def defect? (reading : Reading α) : Option Defect :=
  match reading.outcome with
  | .ok _ => none
  | .error d => some d

/-- **A reading reports defects** if it ends with the first of them, and with a
value if there are none. -/
def Reports (reading : Reading α) (defects : List Defect) : Prop :=
  reading.defect? = defects.head?

theorem reports_pure (a : α) : Reports (pure a) [] := rfl

theorem reports_throw (d : Defect) (ds : List Defect) :
    Reports (throw d : Reading α) (d :: ds) := rfl

namespace Reports

variable {reading : Reading α} {f : α → Reading β} {ds es : List Defect}

/-- **Defects come one after the other** as readings do. -/
theorem bind (h : Reports reading ds) (hf : ∀ a, Reports (f a) es) :
    Reports (reading >>= f) (ds ++ es) := by
  unfold Reports defect? at h hf ⊢
  rw [outcome_bind, List.head?_append, ← h]
  cases hr : reading.outcome with
  | error d => rfl
  | ok a => exact hf a

theorem map (g : α → β) (h : Reports reading ds) : Reports (g <$> reading) ds := by
  have hb := h.bind (fun a => reports_pure (g a))
  rwa [List.append_nil, bind_pure_comp] at hb

/-- An event is no defect. -/
theorem log (e : Event) (h : Reports reading ds) :
    Reports ((liftM (Logged.log e) : Reading Unit) >>= fun _ => reading) ds := by
  have hlog : Reports (liftM (Logged.log e) : Reading Unit) [] := rfl
  exact hlog.bind (fun _ => h)

/-- What is returned in the end has no defects. -/
theorem bind_pure (h : Reports reading ds) (g : α → β) :
    Reports (reading >>= fun a => pure (g a)) ds := by
  rw [bind_pure_comp]
  exact h.map g

/-- A reading that reports defects ends with the first of them. -/
theorem error_iff (h : Reports reading ds) (d : Defect) :
    reading.outcome = .error d ↔ ds.head? = some d := by
  unfold Reports defect? at h
  rw [← h]
  cases reading.outcome with
  | ok a => exact iff_of_false nofun nofun
  | error e => rw [Except.error.injEq, Option.some.injEq]

/-- A reading that reports defects comes to a value if there are none. -/
theorem ok_iff (h : Reports reading ds) : (∃ a, reading.outcome = .ok a) ↔ ds = [] := by
  unfold Reports defect? at h
  rw [← List.head?_eq_none_iff, ← h]
  cases reading.outcome with
  | ok a => exact iff_of_true ⟨a, rfl⟩ rfl
  | error e => exact iff_of_false nofun nofun

end Reports

/-- A child that is needed reports its defects, or that it is missing. -/
theorem reports_required {kind : String} {needed : NeededChild} {found : Option ParseTree}
    {read : ParseTree → Reading α} {walk : ParseTree → List Defect}
    (h : ∀ t, found = some t → Reports (read t) (walk t)) :
    Reports (required kind needed (found.map read))
      ((found.map walk).getD [.missingChild kind needed]) := by
  cases found with
  | none => exact reports_throw _ []
  | some t => exact h t rfl

theorem reports_terminal (kind : String) (children : List ParseTree) (t : Terminal) :
    Reports (terminal kind children t) (terminalDefects kind (walkEach children) t) := by
  unfold terminal terminalDefects
  have hany : (walkEach children).any (·.tree.kind == t.kind)
      = (children.find? (·.kind == t.kind)).isSome := by
    rw [walkEach_eq_map, List.any_map, List.isSome_find?]
    rfl
  rw [hany]
  cases children.find? (·.kind == t.kind) with
  | none => exact reports_throw _ []
  | some child => exact reports_pure _

/-! ## Every reading of a tree reports its walk -/

/-- **What the readings of a node report**: as a node in its place, as a list
of nodes, as something with a body, and as a conditional. Which of them counts
is up to the rule that uses the node. -/
structure ReportsWalk (t : ParseTree) : Prop where
  /-- The node in a place for statements and expressions. -/
  node : Reports (Reading.node t) (Walked.inPlace ⟨t, t.walk⟩)
  /-- All of its children in such places. -/
  nodes : Reports (Reading.nodes t.children) (Use.each.defects t.kind (walkEach t.children))
  /-- The body among its children. -/
  body : Reports (bodyOf t) (Use.body.defects t.kind (walkEach t.children))
  /-- The node as a conditional. -/
  conditional : Reports (conditionalOf t)
    (Rule.conditional.uses.flatMap (Use.defects t.kind (walkEach t.children)))

theorem inPlace_of_rule {t : ParseTree} {r : Rule} (h : t.rule? = some r)
    (hr : r.needsParent = false) : Walked.inPlace ⟨t, t.walk⟩ = t.walk := by
  unfold Walked.inPlace
  rw [h, Option.any_some, hr]
  rfl

theorem reports_nodes {trees : List ParseTree}
    (h : ∀ t ∈ trees, Reports (node t) (Walked.inPlace ⟨t, t.walk⟩)) :
    Reports (nodes trees) ((walkEach trees).flatMap Walked.inPlace) := by
  induction trees with
  | nil => exact reports_pure []
  | cons t ts ih =>
    rw [List.forall_mem_cons] at h
    rw [nodes, walkEach, List.flatMap_cons]
    exact h.1.bind (fun first => (ih h.2).bind_pure (first :: ·))

section Step

-- what is to be shown of a node, given its children
variable {t : ParseTree} (ih : ∀ child ∈ t.children, ReportsWalk child)

include ih

theorem reports_each :
    Reports (nodes t.children) (Use.each.defects t.kind (walkEach t.children)) :=
  reports_nodes (fun child hchild => (ih child hchild).node)

/-- A child of a rule that uses all of its children. -/
theorem reports_child (r : Rule) (hr : r.uses = [.each]) :
    Reports (required t.kind (.rule r) (nodesOf r t.children))
      ((Use.child r).defects t.kind (walkEach t.children)) := by
  rw [nodesOf_eq_map_findRule, Use.defects, find_walkEach, Option.map_map]
  refine reports_required (fun child hchild => ?_)
  obtain ⟨hmem, hrule⟩ := of_findRule hchild
  show Reports (nodes child.children) child.walk
  rw [ParseTree.walk_of_use hrule hr]
  exact (ih child hmem).nodes

theorem reports_first :
    Reports (required t.kind .any (firstNode t.children))
      (Use.first.defects t.kind (walkEach t.children)) := by
  rw [firstNode_eq_map_head?, Use.defects, walkEach_eq_map, List.head?_map, Option.map_map]
  exact reports_required (fun child hchild => (ih child (List.mem_of_mem_head? hchild)).node)

omit ih in
theorem reports_declaration (h : t.rule? = some .declaration) :
    Reports (declaration t.kind t.children) t.walk := by
  rw [ParseTree.walk_of_rule h]
  exact (reports_terminal t.kind t.children .type).bind
    (fun ty => (reports_terminal t.kind t.children .varName).bind
      (fun name => reports_pure (Declaration.mk ty name)))

omit ih in
theorem reports_target :
    Reports (assignTarget t.kind t.children) (Use.target.defects t.kind (walkEach t.children)) := by
  rw [Use.defects, find_walkEach]
  cases hd : findRule .declaration t.children with
  | none =>
    rw [assignTarget_of_none t.children hd]
    exact (reports_terminal t.kind t.children .varName).map AssignTarget.name
  | some d =>
    rw [assignTarget_of_some t.children hd]
    exact (reports_declaration (of_findRule hd).2).map AssignTarget.declaration

theorem reports_body :
    Reports (bodyOf t) (Use.body.defects t.kind (walkEach t.children)) := by
  rw [bodyOf, statementOf_eq_map_findRule, nodesOf_eq_map_findRule, Use.defects, find_walkEach,
    find_walkEach]
  cases hs : findRule .statement t.children with
  | some s =>
    obtain ⟨hmem, hrule⟩ := of_findRule hs
    -- a statement has a meaning wherever it stands
    have hnode := (ih s hmem).node
    rw [inPlace_of_rule hrule rfl] at hnode
    exact hnode.map Body.single
  | none =>
    cases hb : findRule .codeBlock t.children with
    | none => exact reports_pure Body.absent
    | some b =>
      obtain ⟨hmem, hrule⟩ := of_findRule hb
      have hnodes := (ih b hmem).nodes
      rw [← ParseTree.walk_of_use hrule rfl] at hnodes
      exact hnodes.map Body.block

/-- What follows the first clause is a body below a child, or a conditional. -/
theorem reports_continuation :
    Reports (continuation t.kind (elifOf t.children) (elseOf t.children))
      (Use.continuation.defects t.kind (walkEach t.children)) := by
  rw [elseOf_eq_map_findRule, elifOf_eq_map_findRule, Use.defects, find_walkEach, find_walkEach]
  cases he : findRule .conditionalElse t.children with
  | some final =>
    obtain ⟨hmem, hrule⟩ := of_findRule he
    have hbody := (ih final hmem).body
    rw [← ParseTree.walk_of_use hrule rfl] at hbody
    cases findRule .conditionalElif t.children with
    | none => exact hbody.map Continuation.otherwise
    | some branch => exact (hbody.map Continuation.otherwise).log (.keptElse t.kind)
  | none =>
    cases hb : findRule .conditionalElif t.children with
    | none => exact reports_pure Continuation.done
    | some branch =>
      obtain ⟨hmem, hrule⟩ := of_findRule hb
      have hbranch := (ih branch hmem).conditional
      rw [show Rule.conditional.uses = Rule.conditionalElif.uses from rfl,
        ← ParseTree.walk_of_rule hrule] at hbranch
      exact hbranch.map Conditional.toContinuation

theorem reports_conditional :
    Reports (conditionalOf t)
      (Rule.conditional.uses.flatMap (Use.defects t.kind (walkEach t.children))) := by
  -- as among the uses of the rule, the continuation comes first
  rw [conditionalOf, conditional_eq_bind]
  exact (reports_continuation ih).bind (fun next =>
    (reports_child ih .expression rfl).bind (fun condition =>
      (reports_body ih).bind (fun body =>
        reports_pure (Conditional.mk condition body next))))

/-- **A node of a rule reports what its rule uses**, unless the rule has no
meaning where the node stands. -/
theorem reports_node_of_rule {r : Rule} (hr : t.rule? = some r) :
    Reports (node t) (if r.needsParent then .misplaced t.kind :: t.walk else t.walk) := by
  have heach := reports_each ih
  have hfirst := reports_first ih
  have hterminal := reports_terminal t.kind t.children
  have hdeclaration := reports_declaration (t := t)
  have htarget := reports_target (t := t)
  have hexpression := reports_child ih .expression rfl
  have hargs := reports_child ih .args rfl
  have hargsCall := reports_child ih .argsCall rfl
  have hblock := reports_child ih .codeBlock rfl
  have hbody := reports_body ih
  have hconditional := reports_conditional ih
  rw [ParseTree.walk_of_rule hr]
  obtain ⟨kind, text, children⟩ := t
  have hk : Rule.ofKind? kind = some r := hr
  unfold node
  rw [hk]
  -- the binds of a reading come in the order of the uses of its rule
  cases r with
  | start | conditionalElif | conditionalElse | args | argsCall => exact reports_throw _ _
  | statements | controlConstructs | codeBlock | expression =>
    rw [Rule.uses, List.flatMap_singleton]
    exact heach.map _
  | statement | controlConstruct | cycle =>
    rw [Rule.uses, List.flatMap_singleton]
    exact hfirst.map _
  | declaration =>
    have hd := hdeclaration hr
    rw [ParseTree.walk_of_rule hr] at hd
    exact hd.map Node.declaration
  | operator | primaryLiteral => exact reports_pure _
  | returnExpr =>
    rw [Rule.uses, List.flatMap_singleton]
    exact hexpression.map _
  | assignment =>
    exact htarget.bind (fun target => (hterminal .assignmentOperator).bind (fun op =>
      hexpression.bind (fun value => reports_pure (Node.assignment target op value))))
  | conditional => exact hconditional.map Conditional.toNode
  | whileCycle =>
    exact hexpression.bind (fun condition => hbody.bind (fun body =>
      reports_pure (Node.whileLoop condition body)))
  | method =>
    exact (hterminal .type).bind (fun returnType => (hterminal .varName).bind (fun name =>
      hargs.bind (fun args => hblock.bind (fun block =>
        reports_pure (Node.method returnType name args block)))))
  | funcCall =>
    exact (hterminal .varName).bind (fun name => hargsCall.bind (fun args =>
      reports_pure (Node.call name args)))

/-- A node that is of no rule is a token, or not known. -/
theorem reports_node : Reports (node t) (Walked.inPlace ⟨t, t.walk⟩) := by
  unfold Walked.inPlace
  cases hr : t.rule? with
  | some r => exact reports_node_of_rule ih hr
  | none =>
    obtain ⟨kind, text, children⟩ := t
    have hk : Rule.ofKind? kind = none := hr
    rw [ParseTree.walk, hk]
    unfold node
    rw [hk]
    cases children with
    | nil => exact reports_pure _
    | cons child rest => exact reports_throw _ _

end Step

/-- **The readings of every tree report its walk.** -/
theorem reportsWalk (t : ParseTree) : ReportsWalk t := by
  refine ParseTree.forall_of_children (fun t ih => ?_) t
  exact
    { node := reports_node ih
      nodes := reports_each ih
      body := reports_body ih
      conditional := reports_conditional ih }

/-- A program reports the defects of its tree. -/
theorem reports_ofParseTree (t : ParseTree) : Reports (Program.ofParseTree t) t.defects := by
  unfold Program.ofParseTree ParseTree.defects
  by_cases h : t.rule? = some .start
  · rw [if_pos h, if_pos h, ParseTree.walk_of_use h rfl]
    exact (reportsWalk t).nodes.map Program.mk
  · rw [if_neg h, if_neg h]
    exact reports_throw _ _

end Reading

/-- **A parse tree is read as a program if and only if the walk meets no
defect in it. Otherwise the reading ends with the first defect that the walk
meets.** -/
theorem ofParseTree_outcome (t : ParseTree) :
    ((∃ p, (Program.ofParseTree t).outcome = .ok p) ↔ t.defects = [])
      ∧ ∀ d, (Program.ofParseTree t).outcome = .error d ↔ t.defects.head? = some d := by
  have h := Reading.reports_ofParseTree t
  exact ⟨h.ok_iff, h.error_iff⟩

/-- An `else` is looked into before the condition is missed. -/
example :
    (ParseTree.rule "start"
      [.rule "conditional" [.rule "conditionalElse" [.rule "statement" []]]]).defects
    = [.missingChild "statement" .any, .missingChild "conditional" (.rule .expression)] := by
  decide +kernel

end Offside
