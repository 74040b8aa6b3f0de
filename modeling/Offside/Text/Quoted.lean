import Offside.Text.Visible

/-!
# Quoted text

Messages show the text they speak of in double quotes. Within them a quote
and a backslash are written with a backslash before them, four control
characters by their usual letters, every other character that cannot be seen
by its code point in braces, and all other characters as themselves.
-/

namespace Offside

/-- The digits of a number to base sixteen, in lower case. -/
def lowerHex (n : Nat) : String := String.ofList (Nat.toDigits 16 n)

/-- **A character within quotes.** -/
def quotedChar (c : Char) : String :=
  match c with
  | '\x00' => "\\0"
  | '\t' => "\\t"
  | '\n' => "\\n"
  | '\r' => "\\r"
  | '"' => "\\\""
  | '\\' => "\\\\"
  | _ => if isVisible c then c.toString else "\\u\x7b" ++ lowerHex c.toNat ++ "\x7d"

/-- **A text in quotes.** -/
def quoted (text : String) : String :=
  "\"" ++ String.join (text.toList.map quotedChar) ++ "\""

end Offside
