/-!
# Programs

The programs this library lays out come from a small C-like language, and a
program is what is left of a source text once its grammar is known: a tree
of **nodes**, in which every construct of the language has a constructor of
its own. The tree carries the words of the source and nothing else. Types
are kept as words, expressions are flat runs of operands and operators, and
nothing has been checked for sense.

Two families of nodes differ only in what they are called. A **sequence** is
a list of statements, however it came to be written together; a **wrapper**
is a node that stands for the one node inside it. Their kinds are kept,
since a program can be shown as a tree, but no layout depends on them.

A condition, a returned value and the right-hand side of an assignment are
all **expressions**, and an expression is the list of its parts. The clauses
that follow an `if` form a **continuation**: an `elif` with a continuation
of its own, a final `else`, or nothing. `Conditional` collects the three
parts of a conditional for those who build one step by step.
-/

namespace Offside

/-- **A declared name**: a type and the name that has it. -/
structure Declaration where
  /-- The type, as written. -/
  ty : String
  /-- The name. -/
  name : String
  deriving Repr, DecidableEq

/-- **What an assignment assigns to.** -/
inductive AssignTarget where
  /-- A name declared on the spot, as in `int x = …`. -/
  | declaration (d : Declaration)
  /-- A name known already, as in `x += …`. -/
  | name (n : String)
  deriving Repr, DecidableEq

/-- The name an assignment binds. -/
def AssignTarget.boundName : AssignTarget → String
  | declaration d => d.name
  | name n => n

/-- How a sequence of nodes came to be written together. -/
inductive SequenceKind where
  | statements
  | controlConstructs
  /-- A braced block. -/
  | codeBlock
  deriving Repr, DecidableEq

/-- What a wrapped node is wrapped as. -/
inductive WrapperKind where
  | statement
  | controlConstruct
  /-- Any loop. -/
  | cycle
  deriving Repr, DecidableEq

mutual

/-- **A node of a program.** -/
inductive Node where
  /-- Nodes one after another. -/
  | sequence (kind : SequenceKind) (nodes : List Node)
  /-- A node that stands for another one. -/
  | wrapper (kind : WrapperKind) (inner : Node)
  /-- `TYPE name`. -/
  | declaration (d : Declaration)
  /-- `target op value`. -/
  | assignment (target : AssignTarget) (op : String) (value : List Node)
  /-- Operands, operators and expressions within expressions, in order. -/
  | expression (parts : List Node)
  /-- The tokens of an operator. -/
  | operator (tokens : List String)
  /-- The tokens of a literal or of a name that is read. -/
  | literal (tokens : List String)
  /-- An `if` with everything that follows it. -/
  | conditional (condition : List Node) (body : Body) (next : Continuation)
  /-- A loop that runs while its condition holds. -/
  | whileLoop (condition : List Node) (body : Body)
  /-- A function: its arguments with the punctuation between them, and the
  statements of its block. -/
  | method (returnType : String) (name : String) (args : List Node) (body : List Node)
  /-- `return value`. -/
  | returnExpr (value : List Node)
  /-- A call: its arguments with the punctuation between them. -/
  | call (name : String) (args : List Node)
  /-- Punctuation such as `;` or a brace. -/
  | token (text : String)

/-- **The body of a branch or a loop.** -/
inductive Body where
  /-- No body was given. -/
  | absent
  /-- A braced block. -/
  | block (nodes : List Node)
  /-- One statement without braces. -/
  | single (node : Node)

/-- **What follows the body of an `if` or an `elif`.** -/
inductive Continuation where
  /-- Nothing. -/
  | done
  /-- One more condition to try. -/
  | elif (condition : List Node) (body : Body) (next : Continuation)
  /-- The branch taken when no condition held. -/
  | otherwise (body : Body)

end

/-- **An expression** is the list of its parts. -/
abbrev Expression := List Node

/-- **A program** is a list of top-level nodes. -/
structure Program where
  /-- The nodes, in source order. -/
  body : List Node

/-- **The parts of a conditional**, for building one step by step. The same
parts make an `if` and an `elif`. -/
structure Conditional where
  /-- The condition of the first clause. -/
  condition : Expression
  /-- The body of the first clause. -/
  body : Body
  /-- The clauses after it. -/
  next : Continuation

deriving instance BEq, Repr for Node, Body, Continuation
deriving instance BEq, Repr for Program, Conditional

/-! ## Building programs by hand -/

namespace Expression

/-- An expression of a single literal token. -/
def ofLiteral (text : String) : Expression := [.literal [text]]

/-- **`left op right`**, with both operands taken as literal tokens. -/
def binary (left op right : String) : Expression :=
  [.literal [left], .operator [op], .literal [right]]

end Expression

namespace Conditional

/-- A conditional of one clause. -/
def ofBody (condition : Expression) (body : Body) : Conditional := ⟨condition, body, .done⟩

/-- A conditional as a node: its first clause is an `if`. -/
def toNode (c : Conditional) : Node := .conditional c.condition c.body c.next

/-- A conditional as a continuation: its first clause is an `elif`. -/
def toContinuation (c : Conditional) : Continuation := .elif c.condition c.body c.next

end Conditional

namespace Node

/-- The first binding of a name, `TYPE name op value`. -/
def declareAssign (ty name op : String) (value : Expression) : Node :=
  .assignment (.declaration ⟨ty, name⟩) op value

/-- A new value for a known name, `name op value`. -/
def assign (name op : String) (value : Expression) : Node := .assignment (.name name) op value

/-- A literal of one token. -/
def ofLiteral (text : String) : Node := .literal [text]

/-- An operator of one token. -/
def ofOperator (text : String) : Node := .operator [text]

/-- A conditional in statement position. -/
def ifStatement (c : Conditional) : Node := .wrapper .controlConstruct c.toNode

/-- A `while` loop in statement position. -/
def whileStatement (condition : Expression) (body : Body) : Node :=
  .wrapper .cycle (.whileLoop condition body)

end Node

end Offside
