/-!
# Scanners

A scanner reads something from the start of a text and answers with it and
with the rest of the text, or refuses. Scanners are sequenced by `do`, and
`p <|> q` reads with `q` what `p` refuses. The words of TOML are few: blanks,
line breaks, comments and characters of a class.
-/

namespace Offside

/-- **A scanner.** -/
abbrev Scanner := StateT (List Char) Option

namespace Scanner

variable {α : Type}

/-- The next character, without reading it. -/
def peek : Scanner (Option Char) := do return (← get).head?

/-- **A character of a class.** -/
def satisfy (p : Char → Bool) : Scanner Char := do
  match ← get with
  | c :: rest =>
    if p c then
      set rest
      return c
    else failure
  | [] => failure

/-- A certain character. -/
def char (c : Char) : Scanner Unit := do let _ ← satisfy (· == c)

/-- **A certain text.** -/
def text (t : String) : Scanner Unit := t.toList.forM char

/-- A text if it is there. -/
def skipText (t : String) : Scanner Unit := text t <|> pure ()

/-- All characters of a class up to the first that is not in it. -/
def takeAll (p : Char → Bool) : Scanner (List Char) := do
  let input ← get
  set (input.dropWhile p)
  return input.takeWhile p

/-- All characters of a class, of which there is at least one. -/
def takeSome (p : Char → Bool) : Scanner (List Char) := do
  let first ← satisfy p
  return first :: (← takeAll p)

/-- A number of characters of a class. -/
def takeExactly (p : Char → Bool) : Nat → Scanner (List Char)
  | 0 => return []
  | n + 1 => do return (← satisfy p) :: (← takeExactly p n)

/-- **Read with a scanner as often as it will.** A reading that leaves the text
as it was is the last one. -/
def many (p : Scanner α) : Scanner (List α) := fun input =>
  match p input with
  | none => some ([], input)
  | some (a, rest) =>
    if rest.length < input.length then
      (many p rest).map fun (as, rest) => (a :: as, rest)
    else some ([a], rest)
termination_by input => input.length

/-- Readings with a character between two of them, at least one. -/
def separated (p : Scanner α) (separator : Char) : Scanner (List α) := do
  let first ← p
  return first :: (← many (do char separator; p))

/-- The end of the text. -/
def atEnd : Scanner Unit := do
  match ← get with
  | [] => pure ()
  | _ => failure

/-! ## The words of TOML -/

/-- Is this a blank within a line? -/
def isBlank (c : Char) : Bool := c == ' ' || c == '\t'

/-- May this character stand in a comment? Any may but for control characters
other than the tab. -/
def isPlain (c : Char) : Bool := c == '\t' || (' ' ≤ c && c ≤ '~') || 0x80 ≤ c.toNat

/-- Is this a decimal digit? -/
def isDigit (c : Char) : Bool := '0' ≤ c && c ≤ '9'

/-- Is this a hexadecimal digit? -/
def isHexDigit (c : Char) : Bool :=
  isDigit c || ('a' ≤ c && c ≤ 'f') || ('A' ≤ c && c ≤ 'F')

/-- Blanks. -/
def blanks : Scanner Unit := do let _ ← takeAll isBlank

/-- **A line break**: a line feed, with or without a carriage return. -/
def newline : Scanner Unit := char '\n' <|> text "\r\n"

/-- **A comment**, up to the end of its line. -/
def comment : Scanner Unit := do
  char '#'
  let _ ← takeAll isPlain

/-- The rest of a line that has said what it says. -/
def lineEnd : Scanner Unit := do
  blanks
  let _ ← optional comment
  newline <|> atEnd

/-- Blanks, line breaks and comments that end in one. -/
def blankLines : Scanner Unit := do
  let _ ← many ((do let _ ← takeSome isBlank) <|> newline <|> (do comment; newline))

/-- The number that digits make. -/
def numberOf (base : Nat) (digits : List Char) : Nat :=
  digits.foldl (fun n c =>
    n * base + (if isDigit c then c.toNat - '0'.toNat else c.toLower.toNat - 'a'.toNat + 10)) 0

end Scanner

end Offside
