/-!
# What can be wrong with JSON text

Two kinds of errors meet in the reading of JSON text. The text may break the
syntax, and a value may not be of the form that its place asks for. A reader
reports whichever it comes upon first, so both are one type.
-/

namespace Offside

namespace Json

/-- **Where a text ended too early.** -/
inductive Unfinished where
  | value
  | string
  | list
  | object
  deriving Repr, DecidableEq

/-- **An error in the reading of JSON text.** -/
inductive Error where
  /-- The text ended within one of these. -/
  | eof (within : Unfinished)
  /-- No value starts here. -/
  | expectedValue
  /-- A word that started like `null`, `true` or `false` went on differently. -/
  | expectedIdent
  /-- A key without a colon. -/
  | expectedColon
  /-- An item without a comma or a bracket after it. -/
  | expectedListCommaOrEnd
  /-- A member without a comma or a bracket after it. -/
  | expectedObjectCommaOrEnd
  /-- A member that does not start with a string. -/
  | keyMustBeString
  /-- A comma before a closing bracket. -/
  | trailingComma
  /-- More text after the end. -/
  | trailingCharacters
  /-- A numeral that breaks the syntax. -/
  | invalidNumber
  /-- A numeral whose number is too large. -/
  | numberOutOfRange
  /-- A backslash and something that may not follow it. -/
  | invalidEscape
  /-- A control character within a string. -/
  | controlCharacter
  /-- Half of a pair of escapes that stands alone or has a wrong partner. -/
  | loneSurrogate
  /-- The first of a pair of escapes with no escape after it. -/
  | unfinishedSurrogate
  /-- Too many brackets are open. -/
  | recursionLimit
  /-- One form of value where another one is asked for. -/
  | invalidType (found expected : String)
  /-- An array with too few items for the fields it stands for. -/
  | invalidLength (length : Nat) (expected : String)
  /-- A field given twice. -/
  | duplicateField (name : String)
  /-- A field not given. -/
  | missingField (name : String)
  /-- A tag that is none of those known. -/
  | unknownVariant (name : String) (known : List String)
  deriving Repr, DecidableEq

namespace Error

/-- A name in backquotes. -/
private def ticked (name : String) : String := "`" ++ name ++ "`"

/-- What is said of the alternatives there are. -/
private def alternatives : List String → String
  | [] => "there are no variants"
  | [a] => "expected " ++ ticked a
  | [a, b] => "expected " ++ ticked a ++ " or " ++ ticked b
  | names => "expected one of " ++ ", ".intercalate (names.map ticked)

/-- **What is said of an error.** -/
def message : Error → String
  | eof .value => "EOF while parsing a value"
  | eof .string => "EOF while parsing a string"
  | eof .list => "EOF while parsing a list"
  | eof .object => "EOF while parsing an object"
  | expectedValue => "expected value"
  | expectedIdent => "expected ident"
  | expectedColon => "expected `:`"
  | expectedListCommaOrEnd => "expected `,` or `]`"
  | expectedObjectCommaOrEnd => "expected `,` or `\x7d`"
  | keyMustBeString => "key must be a string"
  | trailingComma => "trailing comma"
  | trailingCharacters => "trailing characters"
  | invalidNumber => "invalid number"
  | numberOutOfRange => "number out of range"
  | invalidEscape => "invalid escape"
  | controlCharacter => "control character (\\u0000-\\u001F) found while parsing a string"
  | loneSurrogate => "lone leading surrogate in hex escape"
  | unfinishedSurrogate => "unexpected end of hex escape"
  | recursionLimit => "recursion limit exceeded"
  | invalidType found expected => "invalid type: " ++ found ++ ", expected " ++ expected
  | invalidLength length expected =>
    "invalid length " ++ toString length ++ ", expected " ++ expected
  | duplicateField name => "duplicate field " ++ ticked name
  | missingField name => "missing field " ++ ticked name
  | unknownVariant name known => "unknown variant " ++ ticked name ++ ", " ++ alternatives known

end Error

end Json

end Offside
