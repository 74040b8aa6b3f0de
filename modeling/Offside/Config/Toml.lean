import Offside.Config.Basic
import Offside.Toml.Reader

/-!
# Settings in TOML

A file of settings has two tables: `output`, which sets the width of a step of
indentation, the line ending and whether empty bodies are filled in, and
`calls`, which sets the arguments that are kept. Anything else in the file is
passed over. A setting of the wrong form makes the whole file invalid.

Either table may be an array of its settings in order, which is a way to write
a table that sets nothing, and a point in time counts as a table without
settings. A setting with named choices is a text, or a table with that name as
its one key and nothing in it.
-/

namespace Offside

namespace Layer

/-- A width: an integer from zero up. -/
def widthOf : Toml → Option Nat
  | .integer (.ofNat n) => some n
  | _ => none

/-- A switch. -/
def switchOf : Toml → Option Bool
  | .boolean b => some b
  | _ => none

/-- Is this a table or an array with nothing in it? -/
def isEmptyToml : Toml → Bool
  | .array items => items.isEmpty
  | .inlineTable members | .table _ members => members.isEmpty
  | .tables elements => elements.isEmpty
  | _ => false

/-- **A choice**, by its name. -/
def choiceOf {α : Type} (ofName? : String → Option α) : Toml → Option α
  | .string name => ofName? name
  | .inlineTable [(name, content)] | .table _ [(name, content)] =>
    if isEmptyToml content then ofName? name else none
  | _ => none

/-- **The settings of a table**, by their keys. What is no table has none; what
is a table in an array has them in order. -/
def settingsOf (keys : List String) : Toml → Option Toml.Members
  | .inlineTable members | .table _ members => some members
  | .array items => some (keys.zip items)
  | .tables elements => some (keys.zip (elements.map (.table .header)))
  | .datetime => some []
  | _ => none

/-- A setting, if the table has it. -/
def setting {α : Type} (members : Toml.Members) (key : String) (read : Toml → Option α) :
    Option (Option α) :=
  match members.lookup key with
  | none => some none
  | some v => some <$> read v

/-- The settings of a table of the document; none if the document has no such
table. -/
def tableOf (members : Toml.Members) (key : String) (keys : List String) :
    Option Toml.Members :=
  match members.lookup key with
  | none => some []
  | some t => settingsOf keys t

/-- **The layer that a document sets.** -/
def ofToml (members : Toml.Members) : Option Layer := do
  let output ← tableOf members "output" ["indent_width", "line_ending", "pass_empty_bodies"]
  let calls ← tableOf members "calls" ["arguments"]
  return {
    indentWidth := ← setting output "indent_width" widthOf
    lineEnding := ← setting output "line_ending" (choiceOf LineEnding.ofName?)
    passEmptyBodies := ← setting output "pass_empty_bodies" switchOf
    callArguments := ← setting calls "arguments" (choiceOf CallArguments.ofName?) }

/-- **The layer that a text sets**, if it is a valid file of settings. -/
def ofText (text : String) : Option Layer := Toml.ofText text >>= ofToml

end Layer

end Offside
