import Offside.Program.Basic

/-!
# Bodies without braces

A body without braces is a single node, and a single node can be anything. In
a program from a source text it is a statement. `Node.singles` lists the nodes
that stand as bodies without braces, at whatever depth they stand: in the
bodies of branches, loops and functions, and in expressions and arguments as
well, since these may hold any node.
-/

namespace Offside

/-- Whether a node is wrapped as a statement. -/
def Node.IsStatement (node : Node) : Prop := ∃ inner, node = .wrapper .statement inner

mutual

/-- **The bodies without braces** in a node, at whatever depth. -/
def Node.singles : Node → List Node
  | .sequence _ nodes => singlesOf nodes
  | .wrapper _ inner => inner.singles
  | .declaration _ | .operator _ | .literal _ | .token _ => []
  | .assignment _ _ value => singlesOf value
  | .expression parts => singlesOf parts
  | .conditional condition body next => singlesOf condition ++ (body.singles ++ next.singles)
  | .whileLoop condition body => singlesOf condition ++ body.singles
  | .method _ _ args body => singlesOf args ++ singlesOf body
  | .returnExpr value => singlesOf value
  | .call _ args => singlesOf args

/-- The bodies without braces in nodes. -/
def singlesOf : List Node → List Node
  | [] => []
  | node :: nodes => node.singles ++ singlesOf nodes

/-- The bodies without braces in a body, which can be one itself. -/
def Body.singles : Body → List Node
  | .absent => []
  | .block nodes => singlesOf nodes
  | .single node => node :: node.singles

/-- The bodies without braces in the clauses after an `if`. -/
def Continuation.singles : Continuation → List Node
  | .done => []
  | .elif condition body next => singlesOf condition ++ (body.singles ++ next.singles)
  | .otherwise body => body.singles

end

/-- The bodies without braces in a program. -/
def Program.singles (p : Program) : List Node := singlesOf p.body

/-- The bodies without braces in the parts of a conditional. -/
def Conditional.singles (c : Conditional) : List Node :=
  singlesOf c.condition ++ (c.body.singles ++ c.next.singles)

/-- **Every one of these nodes is a statement.** -/
def AllStatements (nodes : List Node) : Prop := ∀ node ∈ nodes, node.IsStatement

theorem allStatements_nil : AllStatements [] := List.forall_mem_nil _

theorem allStatements_append {ns ms : List Node} :
    AllStatements (ns ++ ms) ↔ AllStatements ns ∧ AllStatements ms :=
  List.forall_mem_append

end Offside
