import Offside.Toml.Scanner

/-!
# Texts and keys of TOML

There are four ways to write a text. In double quotes a backslash starts an
escape, in single quotes it stands for itself, and either kind of quote may
be tripled, after which the text may have several lines. A line break right
after three opening quotes does not count, and within three double quotes a
backslash at the end of a line takes everything with it up to the next word.

Up to two quotes that do not end a text in tripled quotes belong to it, also
right before its end.

A key is a word of letters, digits, underscores and hyphens, or a text of one
line. Keys may be joined by dots.
-/

namespace Offside

namespace Toml

open Scanner

/-- The character of a number of hexadecimal digits. -/
def codePoint (count : Nat) : Scanner Char := do
  let n := numberOf 16 (← takeExactly isHexDigit count)
  if h : n.isValidChar then return Char.ofNatAux n h else failure

/-- **What follows the backslash of an escape.** -/
def escape : Scanner Char := do
  match ← satisfy fun _ => true with
  | 'b' => return '\x08'
  | 't' => return '\t'
  | 'n' => return '\n'
  | 'f' => return '\x0c'
  | 'r' => return '\r'
  | '"' => return '"'
  | '\\' => return '\\'
  | 'u' => codePoint 4
  | 'U' => codePoint 8
  | _ => failure

/-- A character of a text in double quotes. -/
def basicChar : Scanner Char :=
  satisfy (fun c => isPlain c && c != '"' && c != '\\') <|> (do char '\\'; escape)

/-- **A text of one line in double quotes.** -/
def basicText : Scanner String := do
  char '"'
  let body ← many basicChar
  char '"'
  return String.ofList body

/-- **A text of one line in single quotes.** -/
def literalText : Scanner String := do
  char '\x27'
  let body ← takeAll fun c => isPlain c && c != '\x27'
  char '\x27'
  return String.ofList body

/-- A backslash at the end of a line, with all blanks and line breaks after
it. -/
def joinedLine : Scanner (List Char) := do
  char '\\'
  blanks
  newline
  let _ ← many ((do let _ ← takeSome isBlank) <|> newline)
  return []

/-- One or two quotes within a text that three of them end. -/
def innerQuotes (quote : Char) : Scanner (List Char) := do
  let run := (← get).takeWhile (· == quote)
  if run.length = 1 ∨ run.length = 2 then takeAll (· == quote) else failure

/-- The end of a text in tripled quotes, with the quotes that belong to it. -/
def tripleEnd (quote : Char) : Scanner (List Char) := do
  let run := (← get).takeWhile (· == quote)
  if run.length < 3 then failure
  let taken ← takeExactly (· == quote) (min run.length 5)
  return taken.drop 3

/-- A text in tripled quotes, of parts that are read by `part`. -/
def tripled (quote : Char) (part : Scanner (List Char)) : Scanner String := do
  let _ ← takeExactly (· == quote) 3
  let _ ← optional newline
  let body ← many (part <|> (do newline; return ['\n']) <|> innerQuotes quote)
  let last ← tripleEnd quote
  return String.ofList (body.flatten ++ last)

/-- **A text of several lines in double quotes.** -/
def longBasicText : Scanner String :=
  tripled '"' (joinedLine <|> (do return [← basicChar]))

/-- **A text of several lines in single quotes.** -/
def longLiteralText : Scanner String :=
  tripled '\x27' (takeSome fun c => isPlain c && c != '\x27')

/-- **A text.** -/
def anyText : Scanner String := longBasicText <|> longLiteralText <|> basicText <|> literalText

/-- May this character stand in a key without quotes? -/
def isKeyChar (c : Char) : Bool :=
  isDigit c || ('a' ≤ c && c ≤ 'z') || ('A' ≤ c && c ≤ 'Z') || c == '-' || c == '_'

/-- A key without dots. -/
def simpleKey : Scanner String :=
  basicText <|> literalText <|> (do return String.ofList (← takeSome isKeyChar))

/-- The most parts a key may have. -/
def maxKeyParts : Nat := 79

/-- **A key**, cut at its last part; blanks around the parts do not count. -/
def key : Scanner (List String × String) := do
  let parts ← separated (do blanks; let k ← simpleKey; blanks; return k) '.'
  if maxKeyParts < parts.length then failure
  match parts.getLast? with
  | some last => return (parts.dropLast, last)
  | none => failure

end Toml

end Offside
