import Offside.Decimal.Binary64

/-!
# The shortest decimal

A floating point number stands for every real number that rounds to it. The
text of such a number is the decimal with the fewest digits among them, and
of several as short as that, the one nearest to the number itself.

The reals that round to a number form an interval around it. `shortest`
tries one digit, two digits and so on. For each it looks at the two decimals
of that many digits around the number: if any decimal of that many digits
lies in the interval, one of these two does. Seventeen digits always suffice.
-/

namespace Offside

/-- **A decimal fraction**: digits as a whole number, times a power of ten. -/
structure Decimal where
  /-- The digits, read as a whole number. -/
  digits : Nat
  /-- The power of ten they are scaled by. -/
  exponent : Int
  deriving Repr, DecidableEq

namespace Binary64

/-- A power of ten as a quotient of two whole numbers. -/
private def tenPower (e : Int) : Nat × Nat := (Nat.pow 10 e.toNat, Nat.pow 10 (-e).toNat)

/-- **Does this decimal read as that number?** It does if it lies between the
midpoints to the two neighbours, and on a midpoint if the significand is even.
The distance to the lower neighbour is halved where the exponent changes. -/
def isReadFrom (x : Binary64) (d : Decimal) : Bool :=
  let (tenNum, tenDen) := tenPower d.exponent
  -- both sides of the comparison, in units of a quarter of the last place
  let (xNum, xDen) : Nat × Nat := (1 <<< x.exponent.toNat, 1 <<< (-x.exponent).toNat)
  let value := 4 * d.digits * tenNum * xDen
  let unit := tenDen * xNum
  let below := if x.significand = 1 <<< 52 ∧ minExponent < x.exponent then 1 else 2
  let low := (4 * x.significand - below) * unit
  let high := (4 * x.significand + 2) * unit
  if x.significand % 2 = 0 then low ≤ value ∧ value ≤ high else low < value ∧ value < high

/-- The power of ten of the first digit of a positive number. -/
def leadingPower (x : Binary64) : Int :=
  let (num, den) := x.toRatio
  let digitsOf (n : Nat) : Int := (Nat.toDigits 10 n).length
  let guess := digitsOf num - digitsOf den
  let (tenNum, tenDen) := tenPower guess
  if num * tenDen < den * tenNum then guess - 1 else guess

/-- The nearest decimal of `count` digits that reads as the number, if there
is one. The exponent is that of its last digit. -/
def nearestOf (x : Binary64) (count : Nat) : Option Decimal :=
  let exponent := x.leadingPower - (count - 1 : Nat)
  let (num, den) := x.toRatio
  let (tenNum, tenDen) := tenPower exponent
  let (num, den) := (num * tenDen, den * tenNum)
  let lower : Decimal := ⟨num / den, exponent⟩
  let upper : Decimal := ⟨num / den + 1, exponent⟩
  match x.isReadFrom lower, x.isReadFrom upper with
  | true, true =>
    let twice := 2 * (num % den)
    some (if twice < den ∨ (twice = den ∧ lower.digits % 2 = 0) then lower else upper)
  | true, false => some lower
  | false, true => some upper
  | false, false => none

/-- **The shortest decimal that reads as a number.** -/
def shortest (x : Binary64) : Decimal :=
  if x.isZero then ⟨0, 0⟩
  else ((List.range 17).findSome? fun n => x.nearestOf (n + 1)).getD ⟨0, 0⟩

end Binary64

/-- **How a decimal is laid out as text.** -/
structure DecimalStyle where
  /-- The least power of ten of a first digit for positional notation. -/
  least : Int
  /-- The greatest power of ten of a first digit for positional notation. -/
  greatest : Int
  /-- What stands before the digits of an exponent that is not negative. -/
  positiveExponent : String
  deriving Repr, DecidableEq

namespace Decimal

/-- A decimal whose last digit is not zero, unless it is zero itself. -/
def trim (d : Decimal) : Decimal :=
  let digits := Nat.toDigits 10 d.digits
  let zeros := (digits.reverse.takeWhile (· == '0')).length
  if d.digits = 0 then ⟨0, 0⟩ else ⟨d.digits / Nat.pow 10 zeros, d.exponent + zeros⟩

/-- **A decimal as text.** Positional notation always has a point and a digit
after it; elsewhere one digit stands before the point, and no point without a
digit after it. -/
def text (style : DecimalStyle) (d : Decimal) : String :=
  let d := d.trim
  let digits := Nat.toDigits 10 d.digits
  let count := digits.length
  let leading := d.exponent + count - 1
  let zeros (n : Nat) := List.replicate n '0'
  if style.least ≤ leading ∧ leading ≤ style.greatest then
    if 0 ≤ d.exponent then
      String.ofList (digits ++ zeros d.exponent.toNat ++ ['.', '0'])
    else if 0 ≤ leading then
      let whole := leading.toNat + 1
      String.ofList (digits.take whole ++ '.' :: digits.drop whole)
    else
      String.ofList ('0' :: '.' :: zeros (-leading - 1).toNat ++ digits)
  else
    let mantissa := match digits with
      | [] => []
      | [first] => [first]
      | first :: rest => first :: '.' :: rest
    let mark := if 0 ≤ leading then "e" ++ style.positiveExponent else "e-"
    String.ofList mantissa ++ mark ++ toString leading.natAbs

end Decimal

end Offside
