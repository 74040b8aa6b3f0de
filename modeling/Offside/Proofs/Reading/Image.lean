import Offside.Proofs.ParseTree.OfProgram
import Offside.Proofs.Reading.Yields

/-!
# The programs that can be read

Not every program is read from some parse tree. A body without braces is read
from a statement, so that it is a node wrapped as a statement, while nothing
in the type of programs asks for that. `exists_ofParseTree_iff` says that this
is all that programs from parse trees have in common: a program is read from
some tree if and only if every body without braces in it, at whatever depth,
is a statement.

One direction is what readings yield. The other goes backwards: the plainest
tree of a program is read as that program (`ofParseTree_toParseTree`). Bodies
and the clauses of a conditional are found among more children than their own,
and for them the induction says that they are read back from any children in
which the same is found (`BodyReadsBack`, `ContinuationReadsBack`).
-/

namespace Offside

namespace Reading

/-! ## What the rules make of their children -/

/-- The tokens that are written as marks are read back. -/
theorem tokens_tree_mark (r : Rule) (tokens : List String) :
    (r.tree (tokens.map mark)).tokens = tokens := by
  cases tokens with
  | nil => rfl
  | cons token rest =>
    show (List.map mark (token :: rest)).map ParseTree.sourceText = _
    rw [List.map_map]
    exact List.map_id _

/-- What an assignment assigns to is read back, whatever comes after it. -/
theorem assignTarget_toParseTree (kind : String) (target : AssignTarget) {rest : List ParseTree}
    (hrest : findRule .declaration rest = none) :
    assignTarget kind (target.toParseTree :: rest) = pure target := by
  cases target with
  | declaration d =>
    rw [AssignTarget.toParseTree, Declaration.toParseTree,
      assignTarget_of_some _ (findRule_tree .declaration _ rest)]
    rfl
  | name n =>
    rw [AssignTarget.toParseTree,
      assignTarget_of_none _ ((findRule_terminal _ .varName n rest).trans hrest)]
    rfl

section Children

variable {children : List ParseTree} {name op : String} {args value : List Node}

theorem node_sequence (kind : SequenceKind) {ns : List Node} (h : nodes children = pure ns) :
    node (kind.rule.tree children) = pure (.sequence kind ns) := by
  unfold Rule.tree ParseTree.rule node
  rw [Rule.ofKind?_name]
  cases kind <;> exact congrArg (_ <$> ·) h

theorem node_wrapper (kind : WrapperKind) {t : ParseTree} {inner : Node}
    (h : node t = pure inner) :
    node (kind.rule.tree [t]) = pure (.wrapper kind inner) := by
  unfold Rule.tree ParseTree.rule node
  rw [Rule.ofKind?_name]
  cases kind <;> exact congrArg (_ <$> ·) h

theorem node_declaration (d : Declaration) : node d.toParseTree = pure (.declaration d) := by
  unfold Declaration.toParseTree Rule.tree ParseTree.rule node
  rw [Rule.ofKind?_name]
  rfl

theorem node_expression (h : nodes children = pure value) :
    node (Rule.expression.tree children) = pure (.expression value) := by
  unfold Rule.tree ParseTree.rule node
  rw [Rule.ofKind?_name, h]
  rfl

theorem node_operator (tokens : List String) :
    node (Rule.operator.tree (tokens.map mark)) = pure (.operator tokens) := by
  have htokens := tokens_tree_mark .operator tokens
  unfold Rule.tree ParseTree.rule node
  rw [Rule.ofKind?_name]
  exact congrArg (fun ts => pure (Node.operator ts)) htokens

theorem node_primaryLiteral (tokens : List String) :
    node (Rule.primaryLiteral.tree (tokens.map mark)) = pure (.literal tokens) := by
  have htokens := tokens_tree_mark .primaryLiteral tokens
  unfold Rule.tree ParseTree.rule node
  rw [Rule.ofKind?_name]
  exact congrArg (fun ts => pure (Node.literal ts)) htokens

theorem node_mark (text : String) : node (mark text) = pure (.token text) := by
  unfold mark ParseTree.leaf node
  rw [show Rule.ofKind? "';'" = none by decide +kernel]
  rfl

theorem node_conditional {c : Conditional}
    (h : conditionalOf (Rule.conditional.tree children) = pure c) :
    node (Rule.conditional.tree children) = pure c.toNode := by
  unfold Rule.tree ParseTree.rule node
  rw [Rule.ofKind?_name]
  exact congrArg (Conditional.toNode <$> ·) h

theorem node_assignment {target : AssignTarget}
    (ht : assignTarget Rule.assignment.name children = pure target)
    (ho : terminal Rule.assignment.name children .assignmentOperator = pure op)
    (hv : nodesOf .expression children = some (pure value)) :
    node (Rule.assignment.tree children) = pure (.assignment target op value) := by
  unfold Rule.tree ParseTree.rule node
  rw [Rule.ofKind?_name, ht, ho, hv]
  rfl

theorem node_whileCycle {b : Body} (hv : nodesOf .expression children = some (pure value))
    (hb : body (statementOf children) (nodesOf .codeBlock children) = pure b) :
    node (Rule.whileCycle.tree children) = pure (.whileLoop value b) := by
  unfold Rule.tree ParseTree.rule node
  rw [Rule.ofKind?_name, hv, hb]
  rfl

theorem node_method {returnType : String} {block : List Node}
    (ht : terminal Rule.method.name children .type = pure returnType)
    (hn : terminal Rule.method.name children .varName = pure name)
    (ha : nodesOf .args children = some (pure args))
    (hb : nodesOf .codeBlock children = some (pure block)) :
    node (Rule.method.tree children) = pure (.method returnType name args block) := by
  unfold Rule.tree ParseTree.rule node
  rw [Rule.ofKind?_name, ht, hn, ha, hb]
  rfl

theorem node_returnExpr (hv : nodesOf .expression children = some (pure value)) :
    node (Rule.returnExpr.tree children) = pure (.returnExpr value) := by
  unfold Rule.tree ParseTree.rule node
  rw [Rule.ofKind?_name, hv]
  rfl

theorem node_funcCall (hn : terminal Rule.funcCall.name children .varName = pure name)
    (ha : nodesOf .argsCall children = some (pure args)) :
    node (Rule.funcCall.tree children) = pure (.call name args) := by
  unfold Rule.tree ParseTree.rule node
  rw [Rule.ofKind?_name, hn, ha]
  rfl

end Children

/-! ## Reading a plainest tree back -/

/-- **A body is read back** from any children in which its parts are found. -/
def BodyReadsBack (b : Body) : Prop :=
  ∀ children, findRule .statement children = findRule .statement b.toParseTrees →
    findRule .codeBlock children = findRule .codeBlock b.toParseTrees →
    body (statementOf children) (nodesOf .codeBlock children) = pure b

/-- **The clauses after an `if` are read back** from any children in which they
are found. -/
def ContinuationReadsBack (c : Continuation) : Prop :=
  ∀ kind children, findRule .conditionalElif children = findRule .conditionalElif c.toParseTrees →
    findRule .conditionalElse children = findRule .conditionalElse c.toParseTrees →
    continuation kind (elifOf children) (elseOf children) = pure c

/-- **A conditional is read back if its parts are.** -/
theorem conditionalOf_toParseTrees (r : Rule) {c : Conditional} (h : AllStatements c.body.singles)
    (hcondition : nodes (toParseTrees c.condition) = pure c.condition)
    (hbody : BodyReadsBack c.body) (hnext : ContinuationReadsBack c.next) :
    conditionalOf (r.tree c.toParseTrees) = pure c := by
  have hexpression : nodesOf .expression c.toParseTrees
      = some (nodes (toParseTrees c.condition)) :=
    nodesOf_of_findRule (findRule_tree .expression _ _)
  have hb := hbody c.toParseTrees (findRule_of_body c nofun nofun nofun)
    (findRule_of_body c nofun nofun nofun)
  have hn := hnext r.name c.toParseTrees (findRule_of_continuation h nofun nofun nofun)
    (findRule_of_continuation h nofun nofun nofun)
  show conditional r.name (elifOf c.toParseTrees) (elseOf c.toParseTrees)
    (nodesOf .expression c.toParseTrees)
    (body (statementOf c.toParseTrees) (nodesOf .codeBlock c.toParseTrees)) = _
  rw [conditional_eq_bind, hn, hexpression, hb, hcondition]
  rfl

mutual

/-- **A node is read back from its plainest tree**, with no event. -/
theorem node_toParseTree : ∀ n : Node, AllStatements n.singles → node n.toParseTree = pure n
  | .sequence kind ns, h => node_sequence kind (nodes_toParseTrees ns h)
  | .wrapper kind inner, h => node_wrapper kind (node_toParseTree inner h)
  | .declaration d, _ => node_declaration d
  | .assignment target op value, h => by
    have hvalue := nodes_toParseTrees value h
    -- the search for the expression starts two children before it
    have hfind := findRule_tree .expression (toParseTrees value) []
    rw [← findRule_terminal _ .assignmentOperator op, ← findRule_target target (by decide)]
      at hfind
    refine node_assignment (assignTarget_toParseTree _ target ?_) ?_ ?_
    · rw [findRule_terminal]
      exact findRule_tree_of_ne (by decide) _ []
    · cases target <;> rfl
    · rw [nodesOf_of_findRule hfind, hvalue]
  | .expression parts, h => node_expression (nodes_toParseTrees parts h)
  | .operator tokens, _ => node_operator tokens
  | .literal tokens, _ => node_primaryLiteral tokens
  | .conditional condition b next, h => by
    have hs := allStatements_append.mp h
    have ht := allStatements_append.mp hs.2
    exact node_conditional (conditionalOf_toParseTrees (c := ⟨condition, b, next⟩) .conditional
      ht.1 (nodes_toParseTrees condition hs.1) (body_toParseTrees b ht.1)
      (continuation_toParseTrees next ht.2))
  | .whileLoop condition b, h => by
    have hs := allStatements_append.mp h
    have hcondition := nodes_toParseTrees condition hs.1
    have hb := body_toParseTrees b hs.2
    have hfind := findRule_tree .expression (toParseTrees condition) b.toParseTrees
    refine node_whileCycle ?_ (hb _ ?_ ?_)
    · rw [nodesOf_of_findRule hfind, hcondition]
    · exact findRule_tree_of_ne (by decide) _ _
    · exact findRule_tree_of_ne (by decide) _ _
  | .method returnType name args b, h => by
    have hs := allStatements_append.mp h
    have hargs := nodes_toParseTrees args hs.1
    have hb := nodes_toParseTrees b hs.2
    have hfindArgs := findRule_tree .args (toParseTrees args)
      [Rule.codeBlock.tree (toParseTrees b)]
    have hfindBlock := findRule_tree .codeBlock (toParseTrees b) []
    rw [← findRule_tree_of_ne (s := .args) (by decide) (toParseTrees args)] at hfindBlock
    rw [← findRule_terminal _ .varName name, ← findRule_terminal _ .type returnType]
      at hfindArgs hfindBlock
    refine node_method rfl rfl ?_ ?_
    · rw [nodesOf_of_findRule hfindArgs, hargs]
    · rw [nodesOf_of_findRule hfindBlock, hb]
  | .returnExpr value, h => by
    have hvalue := nodes_toParseTrees value h
    have hfind := findRule_tree .expression (toParseTrees value) []
    refine node_returnExpr ?_
    rw [nodesOf_of_findRule hfind, hvalue]
  | .call name args, h => by
    have hargs := nodes_toParseTrees args h
    have hfind := findRule_tree .argsCall (toParseTrees args) []
    rw [← findRule_terminal _ .varName name] at hfind
    refine node_funcCall rfl ?_
    rw [nodesOf_of_findRule hfind, hargs]
  | .token text, _ => node_mark text

theorem nodes_toParseTrees : ∀ ns : List Node, AllStatements (singlesOf ns) →
    nodes (toParseTrees ns) = pure ns
  | [], _ => rfl
  | n :: ns, h => by
    have hs := allStatements_append.mp h
    rw [toParseTrees, nodes, node_toParseTree n hs.1, nodes_toParseTrees ns hs.2]
    rfl

theorem body_toParseTrees : ∀ b : Body, AllStatements b.singles → BodyReadsBack b
  | .absent, _ => by
    intro children hs hb
    rw [statementOf_eq_map_findRule, nodesOf_eq_map_findRule, hs, hb]
    rfl
  | .block ns, h => by
    intro children hs hb
    rw [statementOf_eq_map_findRule, hs, nodesOf_of_findRule (hb.trans (findRule_tree .codeBlock _ [])),
      nodes_toParseTrees ns h, Body.toParseTrees,
      findRule_tree_of_ne (r := .statement) (s := .codeBlock) nofun]
    rfl
  | .single n, h => by
    -- being a statement, the node is found where a body is looked for
    have hc := List.forall_mem_cons.mp h
    have hn := node_toParseTree n hc.2
    obtain ⟨inner, hinner⟩ := hc.1
    intro children hs hb
    rw [statementOf_eq_map_findRule, hs, Body.toParseTrees, findRule_cons,
      if_pos (by rw [hinner, Node.toParseTree]; exact Rule.rule?_tree _ _)]
    show Body.single <$> node n.toParseTree = _
    rw [hn]
    rfl

theorem continuation_toParseTrees : ∀ c : Continuation, AllStatements c.singles →
    ContinuationReadsBack c
  | .done, _ => by
    intro kind children hi he
    rw [elifOf_eq_map_findRule, elseOf_eq_map_findRule, hi, he]
    rfl
  | .elif condition b next, h => by
    have hs := allStatements_append.mp h
    have ht := allStatements_append.mp hs.2
    have hc := conditionalOf_toParseTrees (c := ⟨condition, b, next⟩) .conditionalElif ht.1
      (nodes_toParseTrees condition hs.1) (body_toParseTrees b ht.1)
      (continuation_toParseTrees next ht.2)
    intro kind children hi he
    rw [elifOf_eq_map_findRule, elseOf_eq_map_findRule, hi, he, Continuation.toParseTrees,
      findRule_tree, findRule_tree_of_ne (r := .conditionalElse) (s := .conditionalElif) nofun]
    exact congrArg (Conditional.toContinuation <$> ·) hc
  | .otherwise b, h => by
    have hb := body_toParseTrees b h b.toParseTrees rfl rfl
    intro kind children hi he
    rw [elifOf_eq_map_findRule, elseOf_eq_map_findRule, hi, he, Continuation.toParseTrees,
      findRule_tree, findRule_tree_of_ne (r := .conditionalElif) (s := .conditionalElse) nofun]
    exact congrArg (Continuation.otherwise <$> ·) hb

end

end Reading

/-- **A program is read back from its plainest tree**, with no event, if every
body without braces is a statement. -/
theorem ofParseTree_toParseTree (p : Program) (h : AllStatements p.singles) :
    Program.ofParseTree p.toParseTree = pure p := by
  have hnodes := Reading.nodes_toParseTrees p.body h
  unfold Program.ofParseTree Program.toParseTree
  rw [if_pos (Rule.rule?_tree .start _)]
  exact congrArg (Program.mk <$> ·) hnodes

/-- **A program is read from some parse tree if and only if every body without
braces in it is a statement.** -/
theorem exists_ofParseTree_iff (p : Program) :
    (∃ t, (Program.ofParseTree t).outcome = .ok p) ↔ ∀ node ∈ p.singles, node.IsStatement := by
  constructor
  · rintro ⟨t, ht⟩
    exact Reading.yields_ofParseTree t p ht
  · intro h
    refine ⟨p.toParseTree, ?_⟩
    rw [ofParseTree_toParseTree p h]
    rfl

end Offside
