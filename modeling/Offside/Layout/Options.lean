import Offside.Text.Join

/-!
# Options of the layout

Four choices shape the text a program is laid out as: how wide a step of
indentation is, how lines end, whether a body without text is filled in, and
which arguments of a call are kept. `Options` collects them; its default is
what is used where nobody chose.

Two of the choices have names, which are read from text without regard to
the case of ASCII letters.
-/

namespace Offside

/-- **How a line ends.** -/
inductive LineEnding where
  /-- Carriage return and line feed. -/
  | crlf
  /-- Line feed. -/
  | lf
  deriving Repr, DecidableEq

/-- **Which arguments of a call are kept.** -/
inductive CallArguments where
  /-- Literals only. -/
  | literals
  /-- Literals, expressions and calls. -/
  | expressions
  deriving Repr, DecidableEq

/-- **A name that stands for no choice**, with what was being chosen. -/
inductive ChoiceError where
  /-- No line ending has this name. -/
  | lineEnding (text : String)
  /-- No choice of call arguments has this name. -/
  | callArguments (text : String)
  deriving Repr, DecidableEq

/-- What is said of a name that stands for no choice. -/
def ChoiceError.message : ChoiceError → String
  | lineEnding text => "unknown line ending: " ++ text ++ " (expected crlf or lf)"
  | callArguments text =>
    "unknown call argument mode: " ++ text ++ " (expected literals or expressions)"

namespace LineEnding

/-- The characters that end a line. -/
def text : LineEnding → String
  | crlf => "\r\n"
  | lf => "\n"

/-- The name of a line ending. -/
def name : LineEnding → String
  | crlf => "crlf"
  | lf => "lf"

/-- The line ending of exactly this name. -/
def ofName? : String → Option LineEnding
  | "crlf" => some crlf
  | "lf" => some lf
  | _ => none

/-- **The line ending of this name, in any case.** -/
def parse (text : String) : Except ChoiceError LineEnding :=
  match ofName? text.toLower with
  | some ending => .ok ending
  | none => .error (.lineEnding text.toLower)

/-- A line ending is found by its name. -/
@[simp] theorem ofName?_name (e : LineEnding) : ofName? e.name = some e := by cases e <;> rfl

end LineEnding

namespace CallArguments

/-- The name of a choice of call arguments. -/
def name : CallArguments → String
  | literals => "literals"
  | expressions => "expressions"

/-- The choice of exactly this name. -/
def ofName? : String → Option CallArguments
  | "literals" => some literals
  | "expressions" => some expressions
  | _ => none

/-- **The choice of this name, in any case.** -/
def parse (text : String) : Except ChoiceError CallArguments :=
  match ofName? text.toLower with
  | some mode => .ok mode
  | none => .error (.callArguments text.toLower)

/-- A choice is found by its name. -/
@[simp] theorem ofName?_name (m : CallArguments) : ofName? m.name = some m := by cases m <;> rfl

end CallArguments

/-- **The choices that shape a layout.** -/
structure Options where
  /-- Spaces per level of nesting. -/
  indentWidth : Nat := 4
  /-- What stands between two lines. -/
  lineEnding : LineEnding := .crlf
  /-- Whether a body without text is given the statement `pass`. -/
  passEmptyBodies : Bool := true
  /-- Which arguments of a call are kept. -/
  callArguments : CallArguments := .literals
  deriving Repr, DecidableEq

namespace Options

instance : Inhabited Options := ⟨{}⟩

/-- The indentation of a line at `depth` levels of nesting. -/
def indent (o : Options) (depth : Nat) : String :=
  String.ofList (List.replicate (depth * o.indentWidth) ' ')

/-- **A text in statement position**: indented, unless there is no text. -/
def place (o : Options) (depth : Nat) (text : String) : String :=
  if text = "" then "" else o.indent depth ++ text

/-- Texts one below the other. -/
def stack (o : Options) (texts : List String) : String := o.lineEnding.text.intercalate texts

/-- Texts one below the other, without the empty ones. -/
def stackNonEmpty (o : Options) (texts : List String) : String :=
  joinNonEmpty o.lineEnding.text texts

end Options

end Offside
