import Offside.Json.Decode
import Offside.Json.Printer
import Offside.ParseTree.Basic

/-!
# Parse trees as JSON

A node of a parse tree is a record with the fields `kind`, `text` and
`children`, of which the first is needed. What is written leaves out a text
that is not there and a list of children that is empty; what is read may say
either of them, and may spell a text that is not there as `null`.
-/

namespace Offside

namespace ParseTree

open Json.Decoder

mutual

/-- **A parse tree as a value.** -/
def toJson : ParseTree → Json
  | ⟨kind, text, children⟩ =>
    .object (("kind", .string kind)
      :: (match text with
          | some text => [("text", .string text)]
          | none => [])
      ++ (match children with
          | [] => []
          | child :: children =>
            [("children", .array (child.toJson :: toJsonItems children))]))

/-- Parse trees as values. -/
def toJsonItems : List ParseTree → List Json
  | [] => []
  | tree :: trees => tree.toJson :: toJsonItems trees

end

/-- The fields of a node whose children are read by `children`. -/
def fields (children : Json.Decoder (List ParseTree)) :
    Fields [String, Option String, List ParseTree] :=
  .cons (.required "kind" string) <|
  .cons (.withDefault "text" (nullable string) none) <|
  .cons (.withDefault "children" children []) .nil

/-- A node from the values of its fields. -/
def ofValues : Values [String, Option String, List ParseTree] → ParseTree
  | (kind, text, children, ()) => ⟨kind, text, children⟩

mutual

/-- **Reads a parse tree**, with room for so many brackets. -/
def decode : Nat → Json.Decoder ParseTree
  | 0, d => crowded Json.Draft.isBracketed (map ofValues (record "ParseTree" (fields refused))) d
  | room + 1, d => map ofValues (record "ParseTree" (fields (decodeChildren room))) d

/-- Reads a list of parse trees. -/
def decodeChildren : Nat → Json.Decoder (List ParseTree)
  | 0, d => crowded Json.Draft.isArray (sequence refused) d
  | room + 1, d => sequence (decode room) d

end

/-- **The parse tree that a text holds.** -/
def ofText (text : String) : Except Json.Error ParseTree :=
  Json.Decoder.ofText (decode Json.Decoder.maxDepth) text

end ParseTree

end Offside
