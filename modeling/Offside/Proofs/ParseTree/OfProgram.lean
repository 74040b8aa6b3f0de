import Offside.Proofs.Program.Singles
import Offside.Proofs.Reading.Outcome

/-!
# The plainest tree of a program

A program can be written as a parse tree again. The **plainest** tree that
stands for a node has the children that its rule uses, in the order of the
source, and no others. It has no punctuation and no braces, and the tokens of
an operator are terminals of a kind of their own.

Looking a child up in such a tree is simple. Terminals are of no rule
(`findRule_terminal`), and the children of one node are of different rules, so
that every look-up passes over all children but one (`findRule_tree_of_ne`).
Where there are no braces this depends on the body, which has to be a
statement for it to be found.
-/

namespace Offside

/-- A node of a rule, with these children. -/
def Rule.tree (r : Rule) (children : List ParseTree) : ParseTree := .rule r.name children

/-- A terminal with this text. -/
def Terminal.tree (t : Terminal) (text : String) : ParseTree := .leaf t.kind text

/-- A terminal whose text alone matters. -/
def mark (text : String) : ParseTree := .leaf "';'" text

/-- The rule of a sequence. -/
def SequenceKind.rule : SequenceKind → Rule
  | statements => .statements
  | controlConstructs => .controlConstructs
  | codeBlock => .codeBlock

/-- The rule of a wrapped node. -/
def WrapperKind.rule : WrapperKind → Rule
  | statement => .statement
  | controlConstruct => .controlConstruct
  | cycle => .cycle

/-- A declaration as a tree. -/
def Declaration.toParseTree (d : Declaration) : ParseTree :=
  Rule.declaration.tree [Terminal.type.tree d.ty, Terminal.varName.tree d.name]

/-- What an assignment assigns to, as a tree. -/
def AssignTarget.toParseTree : AssignTarget → ParseTree
  | declaration d => d.toParseTree
  | name n => Terminal.varName.tree n

mutual

/-- **The plainest tree that stands for a node.** -/
def Node.toParseTree : Node → ParseTree
  | .sequence kind nodes => kind.rule.tree (toParseTrees nodes)
  | .wrapper kind inner => kind.rule.tree [inner.toParseTree]
  | .declaration d => d.toParseTree
  | .assignment target op value =>
    Rule.assignment.tree
      [target.toParseTree, Terminal.assignmentOperator.tree op,
        Rule.expression.tree (toParseTrees value)]
  | .expression parts => Rule.expression.tree (toParseTrees parts)
  | .operator tokens => Rule.operator.tree (tokens.map mark)
  | .literal tokens => Rule.primaryLiteral.tree (tokens.map mark)
  | .conditional condition body next =>
    Rule.conditional.tree
      (Rule.expression.tree (toParseTrees condition) :: (body.toParseTrees ++ next.toParseTrees))
  | .whileLoop condition body =>
    Rule.whileCycle.tree (Rule.expression.tree (toParseTrees condition) :: body.toParseTrees)
  | .method returnType name args body =>
    Rule.method.tree
      [Terminal.type.tree returnType, Terminal.varName.tree name,
        Rule.args.tree (toParseTrees args), Rule.codeBlock.tree (toParseTrees body)]
  | .returnExpr value => Rule.returnExpr.tree [Rule.expression.tree (toParseTrees value)]
  | .call name args =>
    Rule.funcCall.tree [Terminal.varName.tree name, Rule.argsCall.tree (toParseTrees args)]
  | .token text => mark text

/-- The trees of nodes. -/
def toParseTrees : List Node → List ParseTree
  | [] => []
  | node :: nodes => node.toParseTree :: toParseTrees nodes

/-- The child that a body is read from, if it was given. -/
def Body.toParseTrees : Body → List ParseTree
  | .absent => []
  | .block nodes => [Rule.codeBlock.tree (toParseTrees nodes)]
  | .single node => [node.toParseTree]

/-- The child that the clauses after an `if` are read from, if there are any. -/
def Continuation.toParseTrees : Continuation → List ParseTree
  | .done => []
  | .elif condition body next =>
    [Rule.conditionalElif.tree
      (Rule.expression.tree (toParseTrees condition) :: (body.toParseTrees ++ next.toParseTrees))]
  | .otherwise body => [Rule.conditionalElse.tree body.toParseTrees]

end

/-- The plainest tree of a program. -/
def Program.toParseTree (p : Program) : ParseTree := Rule.start.tree (toParseTrees p.body)

/-- The children that a conditional is read from. -/
def Conditional.toParseTrees (c : Conditional) : List ParseTree :=
  Rule.expression.tree (Offside.toParseTrees c.condition)
    :: (c.body.toParseTrees ++ c.next.toParseTrees)

/-! ## Looking up in a plainest tree -/

theorem Rule.rule?_tree (r : Rule) (children : List ParseTree) :
    (r.tree children).rule? = some r :=
  Rule.ofKind?_name r

/-- A terminal is of no rule. -/
theorem Terminal.rule?_tree (t : Terminal) (text : String) : (t.tree text).rule? = none :=
  Rule.ofKind?_terminal t

namespace Reading

/-- The first child is found if it is of the rule. -/
theorem findRule_tree (r : Rule) (children rest : List ParseTree) :
    findRule r (r.tree children :: rest) = some (r.tree children) := by
  rw [findRule_cons, if_pos (Rule.rule?_tree r children)]

/-- A child of another rule is passed over. -/
theorem findRule_tree_of_ne {r s : Rule} (h : s ≠ r) (children rest : List ParseTree) :
    findRule r (s.tree children :: rest) = findRule r rest := by
  rw [findRule_cons, Rule.rule?_tree, if_neg (fun hs => h (Option.some.inj hs))]

/-- A terminal is passed over when a rule is looked up. -/
theorem findRule_terminal (r : Rule) (t : Terminal) (text : String) (rest : List ParseTree) :
    findRule r (t.tree text :: rest) = findRule r rest := by
  rw [findRule_cons, Terminal.rule?_tree, if_neg nofun]

theorem findRule_append (r : Rule) (ts us : List ParseTree) :
    findRule r (ts ++ us) = (findRule r ts).or (findRule r us) :=
  List.find?_append

/-- What an assignment assigns to is passed over, unless a declaration is
looked up. -/
theorem findRule_target (target : AssignTarget) {r : Rule} (h : Rule.declaration ≠ r)
    (rest : List ParseTree) : findRule r (target.toParseTree :: rest) = findRule r rest := by
  cases target with
  | declaration d => exact findRule_tree_of_ne h _ rest
  | name n => exact findRule_terminal r .varName n rest

/-- A body is a statement or a block, and nothing else is found in its place. -/
theorem findRule_body {b : Body} (hb : AllStatements b.singles) {r : Rule}
    (hs : Rule.statement ≠ r) (hc : Rule.codeBlock ≠ r) : findRule r b.toParseTrees = none := by
  cases b with
  | absent => rfl
  | block nodes => exact findRule_tree_of_ne hc _ []
  | single node =>
    obtain ⟨inner, rfl⟩ := hb node List.mem_cons_self
    exact findRule_tree_of_ne hs _ []

/-- The clauses after an `if` are an `elif` or an `else`. -/
theorem findRule_continuation (c : Continuation) {r : Rule} (hi : Rule.conditionalElif ≠ r)
    (he : Rule.conditionalElse ≠ r) : findRule r c.toParseTrees = none := by
  cases c with
  | done => rfl
  | elif condition body next => exact findRule_tree_of_ne hi _ []
  | otherwise body => exact findRule_tree_of_ne he _ []

/-- In a conditional, a part of the body is found in the body. -/
theorem findRule_of_body (c : Conditional) {r : Rule} (hx : Rule.expression ≠ r)
    (hi : Rule.conditionalElif ≠ r) (he : Rule.conditionalElse ≠ r) :
    findRule r c.toParseTrees = findRule r c.body.toParseTrees := by
  unfold Conditional.toParseTrees
  rw [findRule_tree_of_ne hx, findRule_append, findRule_continuation c.next hi he, Option.or_none]

/-- In a conditional, a part of the clauses that follow is found in them. -/
theorem findRule_of_continuation {c : Conditional} (hb : AllStatements c.body.singles) {r : Rule}
    (hx : Rule.expression ≠ r) (hs : Rule.statement ≠ r) (hc : Rule.codeBlock ≠ r) :
    findRule r c.toParseTrees = findRule r c.next.toParseTrees := by
  unfold Conditional.toParseTrees
  rw [findRule_tree_of_ne hx, findRule_append, findRule_body hb hs hc, Option.none_or]

theorem nodesOf_of_findRule {r : Rule} {children below : List ParseTree}
    (h : findRule r children = some (r.tree below)) : nodesOf r children = some (nodes below) := by
  rw [nodesOf_eq_map_findRule, h]
  rfl

end Reading

end Offside
