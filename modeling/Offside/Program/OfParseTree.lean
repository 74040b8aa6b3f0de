import Offside.Log
import Offside.ParseTree.Error
import Offside.Program.Basic

/-!
# The program in a parse tree

A parse tree is read as a program from the root down. What a rule uses of its
children is fixed by the rule. A sequence uses all of them, a wrapper the
first, and the other rules **look their children up by name**, the first
child of a name being the one that counts. What a rule does not use may be
anything at all.

The children are visited in a fixed order, and the first defect met ends the
reading. Two preferences are built in:

* a conditional with both an `else` and an `elif` keeps the `else`, which is
  logged when the conditional is met, before any of its children is read;
* a body given both as a statement and as a block is the statement.

The order within a conditional is continuation, condition, body.

Every look-up walks the list of children and reads on below the child it
finds. It answers `none` if there is no such child and otherwise the outcome
of reading it, so that the rule decides when the outcome counts.
-/

namespace Offside

/-- **A reading that may meet a defect**, with the events up to there. -/
abbrev Reading := ExceptT Defect Logged

namespace Reading

variable {α : Type}

/-- The child that was found, or the defect that there is none. -/
def required (kind : String) (child : NeededChild) : Option (Reading α) → Reading α
  | some reading => reading
  | none => throw (.missingChild kind child)

/-- The source text of the first child that is this terminal. -/
def terminal (kind : String) (children : List ParseTree) (t : Terminal) : Reading String :=
  match children.find? (·.kind == t.kind) with
  | some child => pure child.sourceText
  | none => throw (.missingChild kind (.terminal t))

/-- A declaration: its type, then its name. -/
def declaration (kind : String) (children : List ParseTree) : Reading Declaration := do
  let ty ← terminal kind children .type
  let name ← terminal kind children .varName
  return ⟨ty, name⟩

/-- **What an assignment assigns to**: the first declaration among its
children, or a name if there is none. -/
def assignTarget (kind : String) (children : List ParseTree) : Reading AssignTarget :=
  match children.find? (·.rule? == some .declaration) with
  | some d => .declaration <$> declaration d.kind d.children
  | none => .name <$> terminal kind children .varName

/-- **A body**, from its statement and its block: the statement counts. -/
def body : Option (Reading Node) → Option (Reading (List Node)) → Reading Body
  | some statement, _ => .single <$> statement
  | none, some block => .block <$> block
  | none, none => pure .absent

/-- **The parts of a conditional**, from what was found of them. -/
def conditional (kind : String) (elif : Option (Reading Continuation))
    (otherwise : Option (Reading Body)) (condition : Option (Reading (List Node)))
    (body : Reading Body) : Reading Conditional := do
  let next ← match elif, otherwise with
    | some _, some final => do
      Logged.log (.keptElse kind)
      .otherwise <$> final
    | none, some final => .otherwise <$> final
    | some branch, none => branch
    | none, none => pure .done
  let condition ← required kind (.rule .expression) condition
  return ⟨condition, ← body, next⟩

mutual

/-- **The node a parse tree stands for**, in a place for statements and
expressions. -/
def node : ParseTree → Reading Node
  | ⟨kind, text, children⟩ =>
    match Rule.ofKind? kind with
    | none =>
      match children with
      | [] => pure (.token (text.getD ""))
      | _ => throw (.unknownRule kind)
    | some .statements => .sequence .statements <$> nodes children
    | some .controlConstructs => .sequence .controlConstructs <$> nodes children
    | some .codeBlock => .sequence .codeBlock <$> nodes children
    | some .statement => .wrapper .statement <$> required kind .any (firstNode children)
    | some .controlConstruct =>
      .wrapper .controlConstruct <$> required kind .any (firstNode children)
    | some .cycle => .wrapper .cycle <$> required kind .any (firstNode children)
    | some .declaration => .declaration <$> declaration kind children
    | some .assignment => do
      let target ← assignTarget kind children
      let op ← terminal kind children .assignmentOperator
      let value ← required kind (.rule .expression) (nodesOf .expression children)
      return .assignment target op value
    | some .expression => .expression <$> nodes children
    | some .operator => pure (.operator (ParseTree.tokens ⟨kind, text, children⟩))
    | some .primaryLiteral => pure (.literal (ParseTree.tokens ⟨kind, text, children⟩))
    | some .conditional =>
      Conditional.toNode <$> conditional kind (elifOf children) (elseOf children)
        (nodesOf .expression children) (body (statementOf children) (nodesOf .codeBlock children))
    | some .whileCycle => do
      let condition ← required kind (.rule .expression) (nodesOf .expression children)
      return .whileLoop condition (← body (statementOf children) (nodesOf .codeBlock children))
    | some .method => do
      let returnType ← terminal kind children .type
      let name ← terminal kind children .varName
      let args ← required kind (.rule .args) (nodesOf .args children)
      let block ← required kind (.rule .codeBlock) (nodesOf .codeBlock children)
      return .method returnType name args block
    | some .returnExpr =>
      .returnExpr <$> required kind (.rule .expression) (nodesOf .expression children)
    | some .funcCall => do
      let name ← terminal kind children .varName
      let args ← required kind (.rule .argsCall) (nodesOf .argsCall children)
      return .call name args
    | some .start | some .conditionalElif | some .conditionalElse | some .args
    | some .argsCall => throw (.misplaced kind)

/-- The nodes that parse trees stand for, in order. -/
def nodes : List ParseTree → Reading (List Node)
  | [] => pure []
  | tree :: trees => return (← node tree) :: (← nodes trees)

/-- The node of the first tree. -/
def firstNode : List ParseTree → Option (Reading Node)
  | [] => none
  | tree :: _ => some (node tree)

/-- The nodes under the first tree that is an `r`. -/
def nodesOf (r : Rule) : List ParseTree → Option (Reading (List Node))
  | [] => none
  | ⟨kind, _, children⟩ :: trees =>
    if Rule.ofKind? kind = some r then some (nodes children) else nodesOf r trees

/-- The node of the first tree that is a statement. -/
def statementOf : List ParseTree → Option (Reading Node)
  | [] => none
  | tree :: trees =>
    if tree.rule? = some .statement then some (node tree) else statementOf trees

/-- The body of the first tree that is an `else`. -/
def elseOf : List ParseTree → Option (Reading Body)
  | [] => none
  | ⟨kind, _, children⟩ :: trees =>
    if Rule.ofKind? kind = some .conditionalElse then
      some (body (statementOf children) (nodesOf .codeBlock children))
    else elseOf trees

/-- The first tree that is an `elif`, read as a conditional of its own. -/
def elifOf : List ParseTree → Option (Reading Continuation)
  | [] => none
  | ⟨kind, _, children⟩ :: trees =>
    if Rule.ofKind? kind = some .conditionalElif then
      some (Conditional.toContinuation <$> conditional kind (elifOf children) (elseOf children)
        (nodesOf .expression children) (body (statementOf children) (nodesOf .codeBlock children)))
    else elifOf trees

end

end Reading

/-- **The program a parse tree stands for.** The root has to be a whole
program; its children are the program's nodes. -/
def Program.ofParseTree (t : ParseTree) : Reading Program :=
  if t.rule? = some .start then Program.mk <$> Reading.nodes t.children
  else throw (.notStart t.kind)

end Offside
