import Offside.Json.Draft

/-!
# Scanning a string

A string is scanned one character at a time, from after its opening quote. The
scan holds what the string says so far, the first thing that is wrong with its
surrogate escapes, and how far it is into an escape.

An escape `\u` takes the four **bytes** after it, whatever they are: if the
text has fewer left, the text has ended within a string, and only four bytes
that are no digits make a bad escape.

Two escapes may spell one character together. The first of such a pair has to
be followed by the second. Where it is not, that is remembered and the scan
goes on as if nothing had happened, since a reader that passes over the string
does not look at such pairs.
-/

namespace Offside

namespace Json

/-- **How far a scan is into an escape.** -/
inductive EscapePhase where
  /-- Not within an escape. -/
  | plain
  /-- After a backslash. -/
  | escape
  /-- Within the bytes after `\u`: the first half of a pair if one came
  before, how many bytes were read, and the number they make if they are
  digits. -/
  | hex (first : Option Nat) (bytes : Nat) (value : Option Nat)
  /-- After the first half of a pair. -/
  | paired (first : Nat)
  /-- After the first half of a pair and a backslash. -/
  | pairedEscape (first : Nat)
  deriving Repr, DecidableEq

/-- **A scan of a string.** -/
structure StringScan where
  /-- The characters so far, the last one first. -/
  rev : List Char
  /-- What is wrong with the surrogate escapes so far. -/
  fault : Option Error
  /-- Where the scan stands. -/
  phase : EscapePhase
  deriving Repr, DecidableEq

/-- What a character makes of a scan. -/
inductive StringStep where
  /-- The scan goes on. -/
  | more (scan : StringScan)
  /-- The string ends. -/
  | done (text : ScannedText)
  /-- The string breaks off: the error for a reader of its text, and for a
  reader that passes over it. -/
  | broken (read skip : Error)
  deriving Repr

/-- The value of a hexadecimal digit, in either case. -/
def hexValue? (c : Char) : Option Nat :=
  if '0' ≤ c ∧ c ≤ '9' then some (c.toNat - '0'.toNat)
  else if 'a' ≤ c ∧ c ≤ 'f' then some (c.toNat - 'a'.toNat + 10)
  else if 'A' ≤ c ∧ c ≤ 'F' then some (c.toNat - 'A'.toNat + 10)
  else none

/-- Is this the first half of a pair? -/
def isFirstHalf (n : Nat) : Bool := 0xD800 ≤ n && n ≤ 0xDBFF

/-- Is this the second half of a pair? -/
def isSecondHalf (n : Nat) : Bool := 0xDC00 ≤ n && n ≤ 0xDFFF

namespace StringScan

/-- The scan after an opening quote. -/
def start : StringScan := ⟨[], none, .plain⟩

/-- What the string says, once it has ended. -/
def text (s : StringScan) : ScannedText :=
  match s.fault with
  | some e => .error e
  | none => .ok (String.ofList s.rev.reverse)

/-- The string breaks off with `e`. -/
def breakOff (s : StringScan) (e : Error) : StringStep := .broken (s.fault.getD e) e

/-- One more character. -/
def push (s : StringScan) (c : Char) : StringScan := { s with rev := c :: s.rev, phase := .plain }

/-- Something is wrong with a surrogate escape. -/
def blame (s : StringScan) (e : Error) : StringScan :=
  { s with fault := s.fault.or (some e), phase := .plain }

/-- Four digits after `\u` are complete. -/
def codeUnit (s : StringScan) (first : Option Nat) (unit : Nat) : StringScan :=
  match first with
  | none =>
    if isSecondHalf unit then s.blame .loneSurrogate
    else if isFirstHalf unit then { s with phase := .paired unit }
    else s.push (Char.ofNat unit)
  | some high =>
    if isSecondHalf unit then
      s.push (Char.ofNat (0x10000 + (high - 0xD800) * 0x400 + (unit - 0xDC00)))
    else s.blame .loneSurrogate

/-- A character outside an escape. -/
def plainStep (s : StringScan) (c : Char) : StringStep :=
  if c = '"' then .done s.text
  else if c = '\\' then .more { s with phase := .escape }
  else if c.toNat < 32 then s.breakOff .controlCharacter
  else .more (s.push c)

/-- A character after a backslash. -/
def escapeStep (s : StringScan) (c : Char) : StringStep :=
  match c with
  | '"' => .more (s.push '"')
  | '\\' => .more (s.push '\\')
  | '/' => .more (s.push '/')
  | 'b' => .more (s.push '\x08')
  | 'f' => .more (s.push '\x0c')
  | 'n' => .more (s.push '\n')
  | 'r' => .more (s.push '\r')
  | 't' => .more (s.push '\t')
  | 'u' => .more { s with phase := .hex none 0 (some 0) }
  | _ => s.breakOff .invalidEscape

/-- **One character.** -/
def step (s : StringScan) (c : Char) : StringStep :=
  match s.phase with
  | .plain => s.plainStep c
  | .escape => s.escapeStep c
  | .hex first bytes value =>
    let value := value.bind fun v => (hexValue? c).map (v * 16 + ·)
    let bytes := bytes + c.utf8Size
    if bytes < 4 then .more { s with phase := .hex first bytes value }
    else match value with
      | some unit => .more (s.codeUnit first unit)
      | none => s.breakOff .invalidEscape
  | .paired first =>
    if c = '\\' then .more { s with phase := .pairedEscape first }
    else (s.blame .unfinishedSurrogate).plainStep c
  | .pairedEscape first =>
    if c = 'u' then .more { s with phase := .hex (some first) 0 (some 0) }
    else (s.blame .unfinishedSurrogate).escapeStep c

/-- The text ends within the string. -/
def atEnd (s : StringScan) : Error × Error := (s.fault.getD (.eof .string), .eof .string)

end StringScan

end Json

end Offside
