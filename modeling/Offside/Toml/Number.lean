import Offside.Toml.Basic
import Offside.Toml.Scanner

/-!
# Numbers and points in time

A value that starts with a digit or a sign is a point in time, a number with
a fraction or an exponent, or an integer, whichever can be read in this order.
Digits may be separated by single underscores. Integers are decimal without
leading zeros, or hexadecimal, octal or binary without a sign, and fit 64 bits.

Points in time are checked against the calendar: months have their days, leap
years one more, and a minute may have a leap second.
-/

namespace Offside

namespace Toml

open Scanner

/-- Digits of a class with single underscores between them. -/
def digitRun (p : Char → Bool) : Scanner (List Char) := do
  let first ← satisfy p
  let rest ← many (satisfy p <|> (do char '_'; satisfy p))
  return first :: rest

/-- **Decimal digits without a leading zero**, and the sign before them. -/
def decimal : Scanner (Bool × List Char) := do
  let sign ← optional (satisfy fun c => c == '+' || c == '-')
  let digits ← (do
    let first ← satisfy fun c => '1' ≤ c && c ≤ '9'
    let rest ← many (satisfy isDigit <|> (do char '_'; satisfy isDigit))
    return first :: rest) <|> (do return [← satisfy isDigit])
  return (sign == some '-', digits)

/-- An integer if it fits 64 bits. -/
def checked (i : Int) : Scanner Toml :=
  if -0x8000000000000000 ≤ i ∧ i ≤ 0x7FFFFFFFFFFFFFFF then return integer i else failure

/-- **An integer.** -/
def anyInteger : Scanner Toml :=
  (do text "0x"; checked (numberOf 16 (← digitRun isHexDigit)))
    <|> (do text "0o"; checked (numberOf 8 (← digitRun fun c => '0' ≤ c && c ≤ '7')))
    <|> (do text "0b"; checked (numberOf 2 (← digitRun fun c => c == '0' || c == '1')))
    <|> (do
      let (negative, digits) ← decimal
      let n : Int := numberOf 10 digits
      checked (if negative then -n else n))

/-- The exponent of a number: its letter, a sign and digits. -/
def exponent : Scanner Int := do
  let _ ← satisfy fun c => c == 'e' || c == 'E'
  let sign ← optional (satisfy fun c => c == '+' || c == '-')
  let n : Int := numberOf 10 (← digitRun isDigit)
  return if sign == some '-' then -n else n

/-- **Is a number of these digits too large?** It is if it rounds to more than
the greatest binary64 number, `2 ^ 1024 - 2 ^ 971`. -/
def isTooLarge (digits : Nat) (exponent : Int) : Bool :=
  if digits = 0 then false
  -- decided by the count of digits, unless it is close
  else
    let leading : Int := (Nat.toDigits 10 digits).length + exponent
    if leading < 308 then false
    else if 310 < leading then true
    else
      let bound := 1 <<< 1024 - 1 <<< 970
      if 0 ≤ exponent then bound ≤ digits * Nat.pow 10 exponent.toNat
      else bound * Nat.pow 10 (-exponent).toNat ≤ digits

/-- **A number with a fraction or an exponent.** One that is too large is
refused if it has no minus sign. -/
def decimalFloat : Scanner Toml := do
  let (negative, digits) ← decimal
  let fraction ← optional (do char '.'; digitRun isDigit)
  let e ← optional exponent
  if fraction.isNone ∧ e.isNone then failure
  let all := numberOf 10 (digits ++ fraction.getD [])
  let scale : Int := e.getD 0 - ((fraction.getD []).length : Nat)
  if ¬ negative ∧ isTooLarge all scale then failure
  return float

/-- Infinity or no number. -/
def specialFloat : Scanner Toml := do
  let _ ← optional (satisfy fun c => c == '+' || c == '-')
  text "inf" <|> text "nan"
  return float

/-- A number of decimal digits within bounds. -/
def bounded (count least greatest : Nat) : Scanner Nat := do
  let n := numberOf 10 (← takeExactly isDigit count)
  if least ≤ n ∧ n ≤ greatest then return n else failure

/-- Is this a leap year? -/
def isLeapYear (year : Nat) : Bool := year % 4 == 0 && (year % 100 != 0 || year % 400 == 0)

/-- The days of a month. -/
def daysOf (year month : Nat) : Nat :=
  if month = 2 then (if isLeapYear year then 29 else 28)
  else if month = 4 ∨ month = 6 ∨ month = 9 ∨ month = 11 then 30 else 31

/-- A day of the calendar. -/
def date : Scanner Unit := do
  let year ← bounded 4 0 9999
  char '-'
  let month ← bounded 2 1 12
  char '-'
  let _ ← bounded 2 1 (daysOf year month)

/-- A time of day. -/
def time : Scanner Unit := do
  let _ ← bounded 2 0 23
  char ':'
  let _ ← bounded 2 0 59
  char ':'
  let _ ← bounded 2 0 60
  let _ ← optional (do char '.'; takeSome isDigit)

/-- The offset of a time from the common one. -/
def offset : Scanner Unit :=
  (do let _ ← satisfy fun c => c == 'Z' || c == 'z')
    <|> (do
      let _ ← satisfy fun c => c == '+' || c == '-'
      let _ ← bounded 2 0 23
      char ':'
      let _ ← bounded 2 0 59)

/-- **A point in time**: a day, a time, or both. -/
def pointInTime : Scanner Toml := do
  (do
    date
    let _ ← optional (do
      let _ ← satisfy fun c => c == 'T' || c == 't' || c == ' '
      time
      let _ ← optional offset)) <|> time
  return datetime

/-- **A value that starts with a digit or a sign.** -/
def anyNumber : Scanner Toml := pointInTime <|> specialFloat <|> decimalFloat <|> anyInteger

end Toml

end Offside
