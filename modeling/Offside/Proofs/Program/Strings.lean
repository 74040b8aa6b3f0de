import Offside.Program.Basic

/-!
# The strings of a program

A program carries the words of its source: names and types, the tokens of
operators and literals, assignment operators, punctuation. `Node.strings`
lists all of them, whether a layout shows them or not. It is what a condition
on the words of a program is a condition on.
-/

namespace Offside

/-- A declaration is written in two strings. -/
def Declaration.strings (d : Declaration) : List String := [d.ty, d.name]

/-- The strings of what an assignment assigns to. -/
def AssignTarget.strings : AssignTarget → List String
  | declaration d => d.strings
  | name n => [n]

mutual

/-- **The strings of a node**, with those of everything in it. -/
def Node.strings : Node → List String
  | .sequence _ nodes => stringsOf nodes
  | .wrapper _ inner => inner.strings
  | .declaration d => d.strings
  | .assignment target op value => target.strings ++ op :: stringsOf value
  | .expression parts => stringsOf parts
  | .operator tokens | .literal tokens => tokens
  | .conditional condition body next =>
    stringsOf condition ++ body.strings ++ next.strings
  | .whileLoop condition body => stringsOf condition ++ body.strings
  | .method returnType name args body =>
    returnType :: name :: stringsOf args ++ stringsOf body
  | .returnExpr value => stringsOf value
  | .call name args => name :: stringsOf args
  | .token text => [text]

/-- The strings of nodes. -/
def stringsOf : List Node → List String
  | [] => []
  | node :: nodes => node.strings ++ stringsOf nodes

/-- The strings of a body. -/
def Body.strings : Body → List String
  | .absent => []
  | .block nodes => stringsOf nodes
  | .single node => node.strings

/-- The strings of the clauses after an `if`. -/
def Continuation.strings : Continuation → List String
  | .done => []
  | .elif condition body next => stringsOf condition ++ body.strings ++ next.strings
  | .otherwise body => body.strings

end

/-- The strings of the parts of a conditional. -/
def Conditional.strings (c : Conditional) : List String :=
  stringsOf c.condition ++ c.body.strings ++ c.next.strings

/-- The strings of a program. -/
def Program.strings (p : Program) : List String := stringsOf p.body

/-- The name an assignment binds is among its strings. -/
theorem AssignTarget.boundName_mem_strings (target : AssignTarget) :
    target.boundName ∈ target.strings := by
  cases target with
  | declaration d => exact List.mem_cons_of_mem _ List.mem_cons_self
  | name n => exact List.mem_cons_self

/-- The strings of a node are among those of the nodes it is one of. -/
theorem strings_of_mem_stringsOf {node : Node} {nodes : List Node} (h : node ∈ nodes) :
    ∀ s ∈ node.strings, s ∈ stringsOf nodes := by
  induction nodes with
  | nil => exact absurd h List.not_mem_nil
  | cons first rest ih =>
    intro s hs
    rw [stringsOf, List.mem_append]
    rcases List.mem_cons.mp h with rfl | hr
    · exact Or.inl hs
    · exact Or.inr (ih hr s hs)

end Offside
