import Offside.ParseTree.Basic

/-!
# The grammar's names

A kind names either a rule of the grammar or a terminal. Grammars differ in
whether they capitalise their rules, so a rule is recognised by its name with
the first letter in either case and every other letter as it stands.
Terminals are compared exactly, and only three of them matter.
-/

namespace Offside

/-- **The rules of the grammar.** -/
inductive Rule where
  | start
  | statements
  | statement
  | declaration
  | assignment
  | expression
  | operator
  | primaryLiteral
  | controlConstructs
  | controlConstruct
  | conditional
  | conditionalElif
  | conditionalElse
  | codeBlock
  | cycle
  | whileCycle
  | method
  | args
  | returnExpr
  | funcCall
  | argsCall
  deriving Repr, DecidableEq

/-- **The terminals whose text is used.** -/
inductive Terminal where
  /-- A type. -/
  | type
  /-- A name. -/
  | varName
  /-- An operator between the two sides of an assignment. -/
  | assignmentOperator
  deriving Repr, DecidableEq

/-- The kind of a terminal. -/
def Terminal.kind : Terminal → String
  | type => "TYPE"
  | varName => "VAR_NAME"
  | assignmentOperator => "ASSIGNMENT_OPERATOR"

namespace Rule

/-- The rules, each once. -/
def all : List Rule :=
  [start, statements, statement, declaration, assignment, expression, operator, primaryLiteral,
    controlConstructs, controlConstruct, conditional, conditionalElif, conditionalElse, codeBlock,
    cycle, whileCycle, method, args, returnExpr, funcCall, argsCall]

/-- The name of a rule, capitalised. -/
def name : Rule → String
  | start => "Start"
  | statements => "Statements"
  | statement => "Statement"
  | declaration => "Declaration"
  | assignment => "Assignment"
  | expression => "Expression"
  | operator => "Operator"
  | primaryLiteral => "PrimaryLiteral"
  | controlConstructs => "ControlConstructs"
  | controlConstruct => "ControlConstruct"
  | conditional => "Conditional"
  | conditionalElif => "ConditionalElif"
  | conditionalElse => "ConditionalElse"
  | codeBlock => "CodeBlock"
  | cycle => "Cycle"
  | whileCycle => "WhileCycle"
  | method => "Method"
  | args => "Args"
  | returnExpr => "ReturnExpr"
  | funcCall => "FuncCall"
  | argsCall => "ArgsCall"

/-- A name with its first letter, if it is an ASCII letter, in upper case. -/
def capitalized (kind : String) : String :=
  match kind.toList with
  | [] => ""
  | first :: rest => String.ofList (first.toUpper :: rest)

/-- **The rule a kind names**, if it names one. -/
def ofKind? (kind : String) : Option Rule := all.find? (·.name == capitalized kind)

/-- No rule is missing from the list of all rules. -/
theorem mem_all (r : Rule) : r ∈ all := by cases r <;> decide

/-- **Different rules have different names.** -/
theorem name_injective {r s : Rule} (h : r.name = s.name) : r = s := by
  cases r <;> cases s <;> first | rfl | simp [name] at h

/-- A rule is recognised by its own name. -/
@[simp] theorem ofKind?_name (r : Rule) : ofKind? r.name = some r := by
  cases r <;> decide +kernel

/-- No terminal has the name of a rule. -/
@[simp] theorem ofKind?_terminal (t : Terminal) : ofKind? t.kind = none := by
  cases t <;> decide +kernel

end Rule

namespace ParseTree

/-- The rule a node was recognised as, if its kind names one. -/
def rule? (t : ParseTree) : Option Rule := Rule.ofKind? t.kind

end ParseTree

end Offside
