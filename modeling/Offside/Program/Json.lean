import Offside.Json.Decode
import Offside.Json.Printer
import Offside.Program.Basic

/-!
# Programs as JSON

A program is a record, and so is everything in it that has named parts. A node
is a variant: an object whose key says what kind of node it is, and whose
value is its content. The same holds for what an assignment assigns to, for
a body that is there and for a continuation.

Where something may be missing, `null` says that it is. Reading is strict
about the rest: every field has to be there, but for those that may be `null`.
-/

namespace Offside

open Json.Decoder

/-! ## Writing -/

/-- **A declaration as a value.** -/
def Declaration.toJson (d : Declaration) : Json :=
  .object [("ty", .string d.ty), ("name", .string d.name)]

/-- **What an assignment assigns to, as a value.** -/
def AssignTarget.toJson : AssignTarget → Json
  | declaration d => .tagged "Declaration" d.toJson
  | name n => .tagged "Name" (.string n)

/-- The tag of a sequence of this kind. -/
def SequenceKind.tag : SequenceKind → String
  | statements => "Statements"
  | controlConstructs => "ControlConstructs"
  | codeBlock => "CodeBlock"

/-- The tag of a wrapper of this kind. -/
def WrapperKind.tag : WrapperKind → String
  | statement => "Statement"
  | controlConstruct => "ControlConstruct"
  | cycle => "Cycle"

/-- The parts of an expression, already values, as the value of the expression. -/
def expressionJson (parts : List Json) : Json := .object [("parts", .array parts)]

/-- The parts of a conditional as its value. -/
def conditionalJson (condition : List Json) (body next : Json) : Json :=
  .object [("condition", expressionJson condition), ("body", body), ("continuation", next)]

mutual

/-- **A node as a value.** -/
def Node.toJson : Node → Json
  | .sequence kind nodes => .tagged kind.tag (.array (nodesToJson nodes))
  | .wrapper kind inner => .tagged kind.tag inner.toJson
  | .declaration d => .tagged "Declaration" d.toJson
  | .assignment target op value =>
    .tagged "Assignment" (.object [("target", target.toJson), ("op", .string op),
      ("value", expressionJson (nodesToJson value))])
  | .expression parts => .tagged "Expression" (expressionJson (nodesToJson parts))
  | .operator tokens => .tagged "Operator" (.ofStrings tokens)
  | .literal tokens => .tagged "PrimaryLiteral" (.ofStrings tokens)
  | .conditional condition body next =>
    .tagged "Conditional" (conditionalJson (nodesToJson condition) body.toJson next.toJson)
  | .whileLoop condition body =>
    .tagged "WhileCycle" (.object [("condition", expressionJson (nodesToJson condition)),
      ("body", body.toJson)])
  | .method returnType name args body =>
    .tagged "Method" (.object [("return_type", .string returnType), ("name", .string name),
      ("args", .array (nodesToJson args)), ("body", .array (nodesToJson body))])
  | .returnExpr value => .tagged "ReturnExpr" (expressionJson (nodesToJson value))
  | .call name args =>
    .tagged "FuncCall" (.object [("name", .string name), ("args", .array (nodesToJson args))])
  | .token text => .tagged "Token" (.string text)

/-- Nodes as values. -/
def nodesToJson : List Node → List Json
  | [] => []
  | node :: nodes => node.toJson :: nodesToJson nodes

/-- **A body as a value.** -/
def Body.toJson : Body → Json
  | .absent => .null
  | .block nodes => .tagged "Block" (.array (nodesToJson nodes))
  | .single node => .tagged "Statement" node.toJson

/-- **A continuation as a value.** -/
def Continuation.toJson : Continuation → Json
  | .done => .null
  | .elif condition body next =>
    .tagged "Elif" (conditionalJson (nodesToJson condition) body.toJson next.toJson)
  | .otherwise body => .tagged "Else" body.toJson

end

/-- **An expression as a value.** -/
def Expression.toJson (e : Expression) : Json := expressionJson (nodesToJson e)

/-- **A conditional as a value.** -/
def Conditional.toJson (c : Conditional) : Json :=
  conditionalJson (nodesToJson c.condition) c.body.toJson c.next.toJson

/-- **A program as a value.** -/
def Program.toJson (p : Program) : Json := .object [("body", .array (nodesToJson p.body))]

/-! ## Reading

The decoders of nodes, bodies and continuations need one another, and each is
given the room for brackets that is left. First those that need none of them. -/

/-- The record of a declaration. -/
def declarationRecord : Json.Decoder Declaration :=
  map (fun (ty, name, ()) => ⟨ty, name⟩)
    (record "Declaration" (.cons (.required "ty" string) <| .cons (.required "name" string) .nil))

/-- **Reads a declaration.** -/
def Declaration.decode : Nat → Json.Decoder Declaration
  | 0, d => crowded Json.Draft.isBracketed declarationRecord d
  | _ + 1, d => declarationRecord d

/-- The forms of what an assignment assigns to. -/
def AssignTarget.cases (declaration : Json.Decoder Declaration) :
    List (Case AssignTarget) :=
  [("Declaration", map .declaration declaration), ("Name", map .name string)]

/-- **Reads what an assignment assigns to.** -/
def AssignTarget.decode : Nat → Json.Decoder AssignTarget
  | 0, d => crowded Json.Draft.isObject (variant (AssignTarget.cases refused)) d
  | room + 1, d => variant (AssignTarget.cases (Declaration.decode room)) d

/-- Reads a list of texts. -/
def decodeTexts : Nat → Json.Decoder (List String)
  | 0, d => crowded Json.Draft.isArray (sequence refused) d
  | _ + 1, d => sequence string d

/-- A record with the one field `parts`. -/
def expressionRecord (parts : Json.Decoder (List Node)) : Json.Decoder Expression :=
  map Prod.fst (record "Expression" (.cons (.required "parts" parts) .nil))

/-- The record of an assignment. -/
def assignmentRecord (target : Json.Decoder AssignTarget)
    (value : Json.Decoder Expression) : Json.Decoder Node :=
  map (fun (target, op, value, ()) => .assignment target op value)
    (record "Assignment" (.cons (.required "target" target) <| .cons (.required "op" string) <|
      .cons (.required "value" value) .nil))

/-- A field that may be `null` or left out, and is `absent` then. -/
def absentField {α : Type} (name : String) (absent : α) (decode : Json.Decoder α) :
    Json.Decoder.Field α :=
  ⟨name, map (·.getD absent) (nullable decode), some absent, none⟩

/-- The record of a conditional. -/
def conditionalRecord (condition : Json.Decoder Expression) (body : Json.Decoder Body)
    (next : Json.Decoder Continuation) : Json.Decoder Conditional :=
  map (fun (condition, body, next, ()) => ⟨condition, body, next⟩)
    (record "Conditional" (.cons (.required "condition" condition) <|
      .cons (absentField "body" .absent body) <|
      .cons (absentField "continuation" .done next) .nil))

/-- The record of a loop. -/
def whileRecord (condition : Json.Decoder Expression) (body : Json.Decoder Body) :
    Json.Decoder Node :=
  map (fun (condition, body, ()) => .whileLoop condition body)
    (record "WhileCycle" (.cons (.required "condition" condition) <|
      .cons (absentField "body" .absent body) .nil))

/-- The record of a function. -/
def methodRecord (nodes : Json.Decoder (List Node)) : Json.Decoder Node :=
  map (fun (returnType, name, args, body, ()) => .method returnType name args body)
    (record "Method" (.cons (.required "return_type" string) <| .cons (.required "name" string) <|
      .cons (.required "args" nodes) <| .cons (.required "body" nodes) .nil))

/-- The record of a call. -/
def callRecord (nodes : Json.Decoder (List Node)) : Json.Decoder Node :=
  map (fun (name, args, ()) => .call name args)
    (record "FuncCall" (.cons (.required "name" string) <| .cons (.required "args" nodes) .nil))

/-- The decoders that the content of a node may need. -/
structure NodeDecoders where
  node : Json.Decoder Node
  nodes : Json.Decoder (List Node)
  texts : Json.Decoder (List String)
  declaration : Json.Decoder Declaration
  assignment : Json.Decoder Node
  expression : Json.Decoder Expression
  conditional : Json.Decoder Conditional
  whileLoop : Json.Decoder Node
  method : Json.Decoder Node
  call : Json.Decoder Node

/-- **The forms of a node.** -/
def Node.cases (d : NodeDecoders) : List (Case Node) :=
  [("Statements", map (.sequence .statements) d.nodes),
    ("Statement", map (.wrapper .statement) d.node),
    ("Declaration", map .declaration d.declaration),
    ("Assignment", d.assignment),
    ("Expression", map .expression d.expression),
    ("Operator", map .operator d.texts),
    ("PrimaryLiteral", map .literal d.texts),
    ("ControlConstructs", map (.sequence .controlConstructs) d.nodes),
    ("ControlConstruct", map (.wrapper .controlConstruct) d.node),
    ("Conditional", map Conditional.toNode d.conditional),
    ("CodeBlock", map (.sequence .codeBlock) d.nodes),
    ("Cycle", map (.wrapper .cycle) d.node),
    ("WhileCycle", d.whileLoop),
    ("Method", d.method),
    ("ReturnExpr", map .returnExpr d.expression),
    ("FuncCall", d.call),
    ("Token", map .token string)]

/-- The decoders of content for which there is no room. -/
def NodeDecoders.refused : NodeDecoders :=
  ⟨Json.Decoder.refused, Json.Decoder.refused, Json.Decoder.refused, Json.Decoder.refused,
    Json.Decoder.refused, Json.Decoder.refused, Json.Decoder.refused, Json.Decoder.refused,
    Json.Decoder.refused, Json.Decoder.refused⟩

/-- The forms of a body. -/
def Body.cases (node : Json.Decoder Node) (nodes : Json.Decoder (List Node)) :
    List (Case Body) :=
  [("Block", map .block nodes), ("Statement", map .single node)]

/-- The forms of a continuation. -/
def Continuation.cases (conditional : Json.Decoder Conditional)
    (body : Json.Decoder Body) : List (Case Continuation) :=
  [("Elif", map Conditional.toContinuation conditional),
    ("Else", map (fun b => .otherwise (b.getD .absent)) (nullable body))]

mutual

/-- **Reads a node**, with room for so many brackets. -/
def Node.decode : Nat → Json.Decoder Node
  | 0, d => crowded Json.Draft.isObject (variant (Node.cases .refused)) d
  | room + 1, d => variant (Node.cases
    { node := Node.decode room
      nodes := decodeNodes room
      texts := decodeTexts room
      declaration := Declaration.decode room
      assignment := decodeAssignment room
      expression := Expression.decode room
      conditional := Conditional.decode room
      whileLoop := decodeWhile room
      method := decodeMethod room
      call := decodeCall room }) d

/-- Reads a list of nodes. -/
def decodeNodes : Nat → Json.Decoder (List Node)
  | 0, d => crowded Json.Draft.isArray (sequence refused) d
  | room + 1, d => sequence (Node.decode room) d

/-- Reads an expression. -/
def Expression.decode : Nat → Json.Decoder Expression
  | 0, d => crowded Json.Draft.isBracketed (expressionRecord refused) d
  | room + 1, d => expressionRecord (decodeNodes room) d

/-- Reads the content of an assignment. -/
def decodeAssignment : Nat → Json.Decoder Node
  | 0, d => crowded Json.Draft.isBracketed (assignmentRecord refused refused) d
  | room + 1, d => assignmentRecord (AssignTarget.decode room) (Expression.decode room) d

/-- Reads a conditional. -/
def Conditional.decode : Nat → Json.Decoder Conditional
  | 0, d => crowded Json.Draft.isBracketed (conditionalRecord refused refused refused) d
  | room + 1, d =>
    conditionalRecord (Expression.decode room) (Body.decode room) (Continuation.decode room) d

/-- Reads the content of a loop. -/
def decodeWhile : Nat → Json.Decoder Node
  | 0, d => crowded Json.Draft.isBracketed (whileRecord refused refused) d
  | room + 1, d => whileRecord (Expression.decode room) (Body.decode room) d

/-- Reads the content of a function. -/
def decodeMethod : Nat → Json.Decoder Node
  | 0, d => crowded Json.Draft.isBracketed (methodRecord refused) d
  | room + 1, d => methodRecord (decodeNodes room) d

/-- Reads the content of a call. -/
def decodeCall : Nat → Json.Decoder Node
  | 0, d => crowded Json.Draft.isBracketed (callRecord refused) d
  | room + 1, d => callRecord (decodeNodes room) d

/-- Reads a body that is there. -/
def Body.decode : Nat → Json.Decoder Body
  | 0, d => crowded Json.Draft.isObject (variant (Body.cases refused refused)) d
  | room + 1, d => variant (Body.cases (Node.decode room) (decodeNodes room)) d

/-- Reads a continuation that is there. -/
def Continuation.decode : Nat → Json.Decoder Continuation
  | 0, d => crowded Json.Draft.isObject (variant (Continuation.cases refused refused)) d
  | room + 1, d => variant (Continuation.cases (Conditional.decode room) (Body.decode room)) d

end

/-- **Reads a program**, with room for so many brackets. -/
def Program.decode : Nat → Json.Decoder Program
  | 0, d => crowded Json.Draft.isBracketed (ofBody refused) d
  | room + 1, d => ofBody (decodeNodes room) d
where
  /-- The record, from a decoder of its one field. -/
  ofBody (nodes : Json.Decoder (List Node)) : Json.Decoder Program :=
    map (fun (body, ()) => ⟨body⟩) (record "Program" (.cons (.required "body" nodes) .nil))

/-- **The program that a text holds.** -/
def Program.ofText (text : String) : Except Json.Error Program :=
  Json.Decoder.ofText (Program.decode maxDepth) text

end Offside
