import Offside.Layout.Options
import Offside.Log
import Offside.Program.Basic

/-!
# Laying a program out

A program is laid out in the indentation-structured form of Python: every
simple statement takes one line, every construct with a body takes a
**header** that ends in a colon, with the body one level further in. Depth is
a parameter of the rendering and nothing else is carried along, so a node
can be rendered on its own, at any depth.

Indentation belongs to statement position. Inside an expression nothing is
indented, and that needs no second set of rules: an expression renders its
parts at depth zero, where the indentation is empty.

What has no text leaves no trace. Sequences and expressions leave out
the parts that render to nothing, and a body that renders to nothing is
replaced by the statement `pass`, or by no line at all, as the options say.

Of a call's arguments only some are kept (`Options.fate`). Each argument that
is dropped is an event of the rendering, logged where it happens.
-/

namespace Offside

/-! ## Arguments -/

/-- **What becomes of an argument of a call.** -/
inductive ArgumentFate where
  /-- It is rendered. -/
  | kept
  /-- It is punctuation, and has no part in the list of arguments. -/
  | skipped
  /-- It is left out, and that is logged. -/
  | dropped
  deriving Repr, DecidableEq

/-- **Which arguments a call keeps**: literals always, expressions and calls
if the options say so. -/
def CallArguments.fate (mode : CallArguments) : Node → ArgumentFate
  | .literal _ => .kept
  | .token _ => .skipped
  | .expression _ | .call _ _ => if mode = .expressions then .kept else .dropped
  | _ => .dropped

/-- **The parameters of a function** are the names declared among its
arguments. -/
def parameterNames (args : List Node) : List String :=
  args.filterMap fun
    | .declaration d => some d.name
    | _ => none

/-! ## Headers and suites -/

/-- A line of its own: indentation, text. -/
def Options.line (o : Options) (depth : Nat) (text : String) : String := o.indent depth ++ text

/-- **The lines under a header**, for a body that has been rendered at
`depth`: its text, or the statement `pass` for a body without text, or
nothing if such bodies stay empty. -/
def Options.suite (o : Options) (depth : Nat) (text : String) : List String :=
  if text ≠ "" then [text] else if o.passEmptyBodies then [o.line depth "pass"] else []

/-! ## Nodes -/

mutual

/-- **A node in statement position at `depth`.** -/
def Node.render (o : Options) (depth : Nat) : Node → Logged String
  | .sequence _ nodes => return o.stackNonEmpty (← renderEach o depth nodes)
  | .wrapper _ inner => inner.render o depth
  | .declaration d => return o.line depth d.name
  | .assignment target op value => do
    let value := joinNonEmpty " " (← renderEach o 0 value)
    return o.line depth (target.boundName ++ " " ++ op ++ " " ++ value)
  | .expression parts => return o.place depth (joinNonEmpty " " (← renderEach o 0 parts))
  | .operator tokens => return o.place depth (joinNonEmpty " " tokens)
  | .literal tokens => return o.place depth (joinNonEmpty " " tokens)
  | .conditional condition body next => do
    let condition := joinNonEmpty " " (← renderEach o 0 condition)
    let suite ← body.render o (depth + 1)
    let clauses ← next.render o depth
    return o.stack (o.line depth ("if " ++ condition ++ ":") :: suite ++ clauses)
  | .whileLoop condition body => do
    let condition := joinNonEmpty " " (← renderEach o 0 condition)
    let suite ← body.render o (depth + 1)
    return o.stack (o.line depth ("while " ++ condition ++ ":") :: suite)
  | .method _ name args body => do
    let text := o.stackNonEmpty (← renderEach o (depth + 1) body)
    let parameters := ", ".intercalate (parameterNames args)
    return o.stack
      (o.line depth ("def " ++ name ++ "(" ++ parameters ++ "):") :: o.suite (depth + 1) text)
  | .returnExpr value => do
    let value := joinNonEmpty " " (← renderEach o 0 value)
    return o.line depth (if value = "" then "return" else "return " ++ value)
  | .call name args => do
    let arguments := joinNonEmpty ", " (← renderArguments o name args)
    return o.place depth (name ++ "(" ++ arguments ++ ")")
  | .token _ => return ""

/-- Nodes in the same position, each with its text. -/
def renderEach (o : Options) (depth : Nat) : List Node → Logged (List String)
  | [] => return []
  | node :: nodes => return (← node.render o depth) :: (← renderEach o depth nodes)

/-- **The arguments that a call of `callee` keeps.** -/
def renderArguments (o : Options) (callee : String) : List Node → Logged (List String)
  | [] => return []
  | arg :: args =>
    match o.callArguments.fate arg with
    | .kept => return (← arg.render o 0) :: (← renderArguments o callee args)
    | .skipped => renderArguments o callee args
    | .dropped => do
      Logged.log (.droppedArgument callee)
      renderArguments o callee args

/-- **The lines under a header** whose body stands at `depth`. -/
def Body.render (o : Options) (depth : Nat) : Body → Logged (List String)
  | .absent => return o.suite depth ""
  | .block nodes => return o.suite depth (o.stackNonEmpty (← renderEach o depth nodes))
  | .single node => return o.suite depth (← node.render o depth)

/-- **The clauses after an `if`**, each with its header at `depth`. -/
def Continuation.render (o : Options) (depth : Nat) : Continuation → Logged (List String)
  | .done => return []
  | .elif condition body next => do
    let condition := joinNonEmpty " " (← renderEach o 0 condition)
    let suite ← body.render o (depth + 1)
    let clauses ← next.render o depth
    return o.line depth ("elif " ++ condition ++ ":") :: suite ++ clauses
  | .otherwise body => return o.line depth "else:" :: (← body.render o (depth + 1))

end

/-- **The text of a program**: its nodes at depth zero, one below the
other. -/
def Program.render (o : Options) (p : Program) : Logged String :=
  return o.stackNonEmpty (← renderEach o 0 p.body)

end Offside
