import Offside.Json.Numeral

/-!
# JSON values

A JSON value as a tree. The members of an object keep their order, and the
same key may occur more than once, since both can be written down.

`Json.depth` counts how many brackets of a value are open at once. Readers
limit it, so it decides which written values can be read back.
-/

namespace Offside

/-- **A JSON value.** -/
inductive Json where
  | null
  | bool (b : Bool)
  | number (n : Numeral)
  | string (s : String)
  | array (items : List Json)
  | object (members : List (String × Json))
  deriving BEq, Repr

namespace Json

/-- An array of texts. -/
def ofStrings (texts : List String) : Json := array (texts.map string)

/-- An object with one member. -/
def tagged (tag : String) (content : Json) : Json := object [(tag, content)]

mutual

/-- **How deep the brackets of a value nest.** -/
def depth : Json → Nat
  | array items => itemsDepth items + 1
  | object members => membersDepth members + 1
  | null | bool _ | number _ | string _ => 0

/-- How deep the brackets of the items of an array nest. -/
def itemsDepth : List Json → Nat
  | [] => 0
  | item :: items => max item.depth (itemsDepth items)

/-- How deep the brackets of the members of an object nest. -/
def membersDepth : List (String × Json) → Nat
  | [] => 0
  | (_, value) :: members => max value.depth (membersDepth members)

end

end Json

end Offside
