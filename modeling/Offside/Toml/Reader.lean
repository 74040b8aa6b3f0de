import Offside.Toml.Number
import Offside.Toml.Text

/-!
# Reading TOML

A document is read line by line: a line is empty, gives a value to a key, or is
the header of a table. What the lines say is collected first and put together
afterwards, since a text that is wrong anywhere is no document at all.

Values nest in brackets and braces, and only so many of them may be open.
-/

namespace Offside

namespace Toml

open Scanner

/-- How many brackets and braces may be open at once. -/
def maxDepth : Nat := 79

/-- **A value without brackets or braces.** -/
def scalar : Scanner Toml := do
  match ← peek with
  | some '"' | some '\x27' => return string (← anyText)
  | some 't' =>
    text "true"
    return boolean true
  | some 'f' =>
    text "false"
    return boolean false
  | _ => anyNumber

/-- **An array.** Its items may stand on several lines, and the last one may
have a comma after it. -/
def bracketed (item : Scanner Toml) : Scanner Toml := do
  char '['
  let items ← optional (separated (do blankLines; let v ← item; blankLines; return v) ',')
  if items.isSome then
    let _ ← optional (char ',')
  blankLines
  char ']'
  return array (items.getD [])

/-- **A value under a key**, in braces or on a line. -/
def keyValue (item : Scanner Toml) : Scanner (List String × String × Toml) := do
  let (path, last) ← key
  char '='
  blanks
  return (path, last, ← item)

/-- **A table in braces.** It stands on one line, and no comma follows its last
pair. -/
def braced (item : Scanner Toml) : Scanner Toml := do
  char '\x7b'
  let pairs ← optional (separated (do let pair ← keyValue item; blanks; return pair) ',')
  blanks
  char '\x7d'
  match ofPairs (pairs.getD []) with
  | some t => return t
  | none => failure

/-- **A value**, with room for so many brackets and braces. -/
def value : Nat → Scanner Toml
  | 0 => scalar
  | room + 1 => do
    match ← peek with
    | some '[' => bracketed (value room)
    | some '\x7b' => braced (value room)
    | _ => scalar

/-- **The header of a table**, or of a table in an array. -/
def header : Scanner TomlStatement :=
  (do
    text "[["
    let (path, last) ← key
    text "]]"
    return .element path last)
  <|> (do
    char '['
    let (path, last) ← key
    char ']'
    return .table path last)

/-- **A line**, and what it says if it says something. -/
def line : Scanner (Option TomlStatement) := do
  blanks
  match ← peek with
  | none => return none
  | some '#' | some '\n' | some '\r' =>
    lineEnd
    return none
  | some '[' =>
    let statement ← header
    lineEnd
    return some statement
  | some _ =>
    let (path, last, v) ← keyValue (value maxDepth)
    lineEnd
    return some (.value path last v)

/-- **A document.** A byte order mark before it does not count. -/
def document : Scanner (List TomlStatement) := do
  skipText "\ufeff"
  let lines ← many line
  atEnd
  return lines.filterMap id

/-- **The table that a text holds**, if it is a document. -/
def ofText (text : String) : Option Members := do
  let (statements, _) ← document.run text.toList
  TomlDocument.ofStatements statements

end Toml

end Offside
