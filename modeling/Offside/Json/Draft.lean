import Offside.Json.Error
import Offside.Json.Numeral
import Offside.Text.Quoted

/-!
# Drafts of values

Whether a text is good JSON for its purpose depends on what it is read as,
and the first error in it may be one of syntax or one of form. The two are
separated here by reading a text into a **draft**: the value as far as the
text goes, with a mark where it breaks off. A draft is made without regard
for what is wanted, and looked at afterwards, from left to right, by whoever
wants something. The first objection is then the first error of the text.

A text that breaks off does so in one place, so at most the last item of an
array or the last member of an object is a **break**, and what a break says
depends on who looks at it: a number that ends in a point is an error of the
number for a reader that passes over it, and the end of the text for one that
wants its value. Surrogate escapes are looked at by the latter only, which is
why the text of a string is a text or an error.

`Draft.skip` is the reader that passes over a value. It objects to bad syntax
and to nothing else.
-/

namespace Offside

namespace Json

/-- **The text of a string**, or what is wrong with its surrogate escapes. -/
abbrev ScannedText := Except Error String

/-- **Where a value breaks off.** -/
inductive Break where
  /-- The text ends before the value. -/
  | eof
  /-- No value starts with the character that is there. -/
  | noValue
  /-- A word breaks off; is it `null`, and does the text end there? -/
  | word (isNull atEnd : Bool)
  /-- A number breaks off; does the text end there? -/
  | number (atEnd : Bool)
  /-- A string breaks off: the error for a reader of its text, and for a
  reader that passes over it. -/
  | string (read skip : Error)
  /-- There is no colon before the value. -/
  | noColon
  /-- The text ends before the colon. -/
  | eofColon
  deriving Repr, DecidableEq

/-- **How an array or an object ends.** -/
inductive Ending where
  /-- With its closing bracket. -/
  | closed
  /-- The text ends where an item, a comma or a bracket could follow. -/
  | eof
  /-- The text ends after a comma. -/
  | eofAfterComma
  /-- A comma stands before the closing bracket. -/
  | trailingComma
  /-- Something else stands where a comma could follow. -/
  | noComma
  /-- Something else than a string stands where a key could follow. -/
  | noKey
  /-- A key breaks off: the error for a reader of its text, and for a reader
  that passes over it. -/
  | badKey (read skip : Error)
  /-- Its last item or member breaks off. -/
  | cut
  deriving Repr, DecidableEq

/-- **A value as far as its text goes.** -/
inductive Draft where
  | null
  | bool (b : Bool)
  | number (n : Numeral)
  | string (s : ScannedText)
  | array (items : List Draft) (ending : Ending)
  | object (members : List (ScannedText × Draft)) (ending : Ending)
  | broken (b : Break)
  deriving Inhabited

/-- A member of an object. -/
abbrev Member := ScannedText × Draft

namespace Break

/-- The error for a reader that wants the value. -/
def readError : Break → Error
  | eof => .eof .value
  | noValue => .expectedValue
  | word _ atEnd => if atEnd then .eof .value else .expectedIdent
  | number atEnd => if atEnd then .eof .value else .invalidNumber
  | string read _ => read
  | noColon => .expectedColon
  | eofColon => .eof .object

/-- The error for a reader that passes over the value. -/
def skipError : Break → Error
  | number _ => .invalidNumber
  | string _ skip => skip
  | b => b.readError

end Break

namespace Ending

/-- The error for a reader that passes over an array. -/
def skipArray : Ending → Except Error Unit
  | closed | cut => .ok ()
  | eof | eofAfterComma => .error (.eof .list)
  | noComma => .error .expectedListCommaOrEnd
  | trailingComma | noKey | badKey _ _ => .error .expectedValue

/-- The error for a reader that passes over an object. -/
def skipObject : Ending → Except Error Unit
  | closed | cut => .ok ()
  | eof | eofAfterComma => .error (.eof .object)
  | noComma => .error .expectedObjectCommaOrEnd
  | trailingComma | noKey => .error .keyMustBeString
  | badKey _ skip => .error skip

end Ending

namespace Draft

mutual

/-- **Pass over a value.** -/
def skip : Draft → Except Error Unit
  | null | bool _ | number _ | string _ => .ok ()
  | array items ending => do
    skipItems items
    ending.skipArray
  | object members ending => do
    skipMembers members
    ending.skipObject
  | broken b => .error b.skipError

/-- Pass over the items of an array. -/
def skipItems : List Draft → Except Error Unit
  | [] => .ok ()
  | item :: items => do
    item.skip
    skipItems items

/-- Pass over the members of an object. -/
def skipMembers : List (ScannedText × Draft) → Except Error Unit
  | [] => .ok ()
  | (_, value) :: members => do
    value.skip
    skipMembers members

end

/-- Does an array start here? -/
def isArray : Draft → Bool
  | array _ _ => true
  | _ => false

/-- Does an object start here? -/
def isObject : Draft → Bool
  | object _ _ => true
  | _ => false

/-- Does the value start with a bracket? -/
def isBracketed (d : Draft) : Bool := d.isArray || d.isObject

/-- **The objection to a value of the wrong form.** A value without brackets
is read to its end first, so what is wrong with itself comes first; of one in
brackets only the bracket is seen. -/
def mismatch (d : Draft) (expected : String) : Error :=
  match d with
  | null => .invalidType "null" expected
  | bool b => .invalidType ("boolean `" ++ (if b then "true" else "false") ++ "`") expected
  | number n =>
    match n.toNumber with
    | some (.integer i) => .invalidType ("integer `" ++ (Number.integer i).text ++ "`") expected
    | some x => .invalidType ("floating point `" ++ x.text ++ "`") expected
    | none => .numberOutOfRange
  | string (.ok s) => .invalidType ("string " ++ quoted s) expected
  | string (.error e) => e
  | array _ _ => .invalidType "sequence" expected
  | object _ _ => .invalidType "map" expected
  | broken b => b.readError

end Draft

end Json

end Offside
