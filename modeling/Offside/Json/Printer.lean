import Offside.Json.Basic

/-!
# Writing JSON

A value is written in one of two forms. The **compact** form has no space at
all. The **pretty** form puts every item and every member on a line of its
own, two spaces further in than the bracket around it; an array or an object
with nothing in it stays on one line.

Within strings only what has to be escaped is: the quote, the backslash and
the control characters below the space. Five of those have a letter of their
own, the others are written with four hexadecimal digits.
-/

namespace Offside

namespace Json

/-- The four lower-case hexadecimal digits of a number below 65536. -/
def fourHex (n : Nat) : String :=
  String.ofList ([n / 4096 % 16, n / 256 % 16, n / 16 % 16, n % 16].map Nat.digitChar)

/-- **A character within a string.** -/
def escapeChar (c : Char) : String :=
  match c with
  | '"' => "\\\""
  | '\\' => "\\\\"
  | '\x08' => "\\b"
  | '\t' => "\\t"
  | '\n' => "\\n"
  | '\x0c' => "\\f"
  | '\r' => "\\r"
  | _ => if c.toNat < 32 then "\\u" ++ fourHex c.toNat else c.toString

/-- **A text as a string.** -/
def quote (text : String) : String :=
  "\"" ++ String.join (text.toList.map escapeChar) ++ "\""

mutual

/-- **The compact form.** -/
def compact : Json → String
  | null => "null"
  | bool true => "true"
  | bool false => "false"
  | number n => n.text
  | string s => quote s
  | array [] => "[]"
  | array (item :: items) => "[" ++ item.compact ++ compactItems items ++ "]"
  | object [] => "\x7b\x7d"
  | object ((key, value) :: members) =>
    "\x7b" ++ quote key ++ ":" ++ value.compact ++ compactMembers members ++ "\x7d"

/-- Items after the first. -/
def compactItems : List Json → String
  | [] => ""
  | item :: items => "," ++ item.compact ++ compactItems items

/-- Members after the first. -/
def compactMembers : List (String × Json) → String
  | [] => ""
  | (key, value) :: members =>
    "," ++ quote key ++ ":" ++ value.compact ++ compactMembers members

end

/-- A line break and the indentation of the line after it. -/
def breakLine (level : Nat) : String := "\n" ++ String.ofList (List.replicate (2 * level) ' ')

mutual

/-- **The pretty form** of a value that stands `level` brackets deep. -/
def prettyAt (level : Nat) : Json → String
  | null => "null"
  | bool true => "true"
  | bool false => "false"
  | number n => n.text
  | string s => quote s
  | array [] => "[]"
  | array (item :: items) =>
    "[" ++ breakLine (level + 1) ++ item.prettyAt (level + 1) ++ prettyItems (level + 1) items
      ++ breakLine level ++ "]"
  | object [] => "\x7b\x7d"
  | object ((key, value) :: members) =>
    "\x7b" ++ breakLine (level + 1) ++ quote key ++ ": " ++ value.prettyAt (level + 1)
      ++ prettyMembers (level + 1) members ++ breakLine level ++ "\x7d"

/-- Items after the first. -/
def prettyItems (level : Nat) : List Json → String
  | [] => ""
  | item :: items => "," ++ breakLine level ++ item.prettyAt level ++ prettyItems level items

/-- Members after the first. -/
def prettyMembers (level : Nat) : List (String × Json) → String
  | [] => ""
  | (key, value) :: members =>
    "," ++ breakLine level ++ quote key ++ ": " ++ value.prettyAt level
      ++ prettyMembers level members

end

/-- **The pretty form.** -/
def pretty (v : Json) : String := v.prettyAt 0

end Json

end Offside
