import Offside.Decimal.Shortest

/-!
# Numerals

A JSON numeral is a sign, a whole part, digits after a point and an exponent.
What number it stands for depends on its form. A numeral without point and
exponent is an **integer** if it fits 64 bits, without a sign or with one;
minus zero does not count as one. Every other numeral is a floating point
number.

The floating point number is found in two roundings. The digits that fit 64
bits make a whole number, which is rounded; digits beyond those count for
their place and no more. The result is then multiplied or divided by a power
of ten, itself rounded, in steps of at most 308 places. A numeral whose number
is too large has none.
-/

namespace Offside

/-- **A JSON numeral**, as it is spelled: leading zeros of the exponent and a
plus sign apart, nothing of it is lost. -/
structure Numeral where
  /-- Is there a minus sign? -/
  negative : Bool
  /-- The whole part. -/
  whole : Nat
  /-- The digits after the point, each below ten; empty if there is no point. -/
  fraction : List Nat
  /-- The exponent, if there is one. -/
  exponent : Option Int
  deriving Repr, DecidableEq

/-- **A number as the reader tells it apart.** -/
inductive Number where
  /-- An integer of at most 64 bits. -/
  | integer (n : Int)
  /-- A floating point number: its sign, and the number without it. -/
  | float (negative : Bool) (magnitude : Binary64)
  deriving Repr, DecidableEq

namespace Number

/-- Whole and fractional floating point numbers are written with a point from
a hundred-thousandth up to where the digits of an integer stop being exact. -/
def style : DecimalStyle := ⟨-5, 15, "+"⟩

/-- The text of a number. -/
def text : Number → String
  | integer n => toString n
  | float negative magnitude =>
    (if negative then "-" else "") ++ magnitude.shortest.text style

end Number

namespace Numeral

/-- The greatest number of 64 bits. -/
def maxWord : Nat := 0xFFFFFFFFFFFFFFFF

/-- The greatest exponent that is taken at its value. -/
def maxExponent : Int := 0x7FFFFFFF

/-- **The digits that fit 64 bits**: starting from `significand`, take digits
while they fit. Answers the number they make and how many digits were left
over. -/
def takeDigits (significand : Nat) : List Nat → Nat × Nat
  | [] => (significand, 0)
  | digit :: digits =>
    if significand * 10 + digit ≤ maxWord then takeDigits (significand * 10 + digit) digits
    else (significand, digits.length + 1)

/-- A whole number and a power of ten that stand for the numeral without sign
and exponent. -/
def scaled (n : Numeral) : Nat × Int :=
  let wholeDigits := (Nat.toDigits 10 n.whole).map fun c => c.toNat - '0'.toNat
  let (significand, leftOver) := takeDigits 0 wholeDigits
  let (significand', leftOver') := takeDigits significand n.fraction
  (significand', (leftOver : Int) - ((n.fraction.length - leftOver' : Nat) : Int))

/-- A power of ten, rounded. -/
private def tenTo (e : Nat) : Option Binary64 := Binary64.ofNat (Nat.pow 10 e)

/-- **A number divided by `10 ^ e`**, in steps of at most 308 places. -/
def divideByTenPower (x : Binary64) (e : Nat) : Option Binary64 :=
  if x.isZero ∨ e ≤ 308 then (tenTo (min e 308)).bind x.div
  else ((tenTo 308).bind x.div).bind fun y => divideByTenPower y (e - 308)
termination_by e
decreasing_by omega

/-- **A number scaled by a power of ten.** -/
def scale (x : Binary64) (e : Int) : Option Binary64 :=
  if 0 ≤ e then
    if e ≤ 308 then (tenTo e.toNat).bind x.mul else if x.isZero then some x else none
  else divideByTenPower x (-e).toNat

/-- **The floating point number of a numeral**, without its sign; nothing if
it is too large. -/
def toBinary64 (n : Numeral) : Option Binary64 :=
  let (significand, e) := n.scaled
  let exponent := n.exponent.getD 0
  if maxExponent < exponent then
    if significand = 0 then some .zero else none
  else if exponent < -maxExponent then some .zero
  else (Binary64.ofNat significand).bind fun x => scale x (e + exponent)

/-- **The number of a numeral**; nothing if it is too large. -/
def toNumber (n : Numeral) : Option Number :=
  let isWhole := n.fraction.isEmpty && n.exponent.isNone
  if isWhole ∧ ¬ n.negative ∧ n.whole ≤ maxWord then some (.integer n.whole)
  else if isWhole ∧ n.negative ∧ 0 < n.whole ∧ n.whole ≤ 0x8000000000000000 then
    some (.integer (-n.whole))
  else n.toBinary64.map (.float n.negative)

/-- **The text of a numeral.** -/
def text (n : Numeral) : String :=
  (if n.negative then "-" else "") ++ toString n.whole
    ++ (if n.fraction.isEmpty then ""
        else "." ++ String.ofList (n.fraction.map fun d => Char.ofNat ('0'.toNat + d)))
    ++ (match n.exponent with
        | none => ""
        | some e => "e" ++ toString e)

end Numeral

end Offside
