/-!
# Rounding to binary64

A floating point number of 64 bits is a whole number of at most 53 bits times
a power of two. Here such a number is kept as just that, a **significand**
and an **exponent**, so that arithmetic on it is exact arithmetic on whole
numbers followed by one rounding.

`Binary64.ofRatio` is that rounding: the nearest number to a quotient of two
whole numbers, an even significand if two are equally near. Products and
quotients of floating point numbers are this rounding of the exact result.
Only numbers from zero up are treated; a sign goes beside them.
-/

namespace Offside

/-- **A finite floating point number from zero up**, `significand * 2 ^ exponent`.
The significand has 53 bits, or fewer if the exponent is the smallest there is. -/
structure Binary64 where
  /-- The whole number that is scaled. -/
  significand : Nat
  /-- The power of two it is scaled by. -/
  exponent : Int
  deriving Repr, DecidableEq

namespace Binary64

/-- The smallest exponent. -/
def minExponent : Int := -1074

/-- The largest exponent. -/
def maxExponent : Int := 971

/-- Zero. -/
def zero : Binary64 := ⟨0, minExponent⟩

/-- Is this number zero? -/
def isZero (x : Binary64) : Bool := x.significand == 0

/-- **A quotient as two whole numbers**: the number is the first over the
second. -/
def toRatio (x : Binary64) : Nat × Nat :=
  (x.significand <<< x.exponent.toNat, 1 <<< (-x.exponent).toNat)

/-- **The nearest whole number** to `num / den`, the even one of two. -/
def roundHalfEven (num den : Nat) : Nat :=
  let q := num / den
  let r := num % den
  if 2 * r < den then q else if den < 2 * r then q + 1 else q + q % 2

/-- **The nearest number to `num / den`**, or nothing if that is too large
for any. -/
def ofRatio (num den : Nat) : Option Binary64 :=
  if num = 0 then some zero else
    let scaled (e : Int) : Nat × Nat := (num <<< (-e).toNat, den <<< e.toNat)
    let guess := max minExponent ((num.log2 : Int) - (den.log2 : Int) - 53)
    let exponent :=
      if (scaled guess).1 / (scaled guess).2 < 1 <<< 53 then guess else guess + 1
    let significand := roundHalfEven (scaled exponent).1 (scaled exponent).2
    let rounded : Binary64 :=
      if significand = 1 <<< 53 then ⟨1 <<< 52, exponent + 1⟩ else ⟨significand, exponent⟩
    if rounded.exponent ≤ maxExponent then some rounded else none

/-- The nearest number to a whole number. -/
def ofNat (n : Nat) : Option Binary64 := ofRatio n 1

/-- **The product**, rounded. -/
def mul (x y : Binary64) : Option Binary64 :=
  ofRatio (x.toRatio.1 * y.toRatio.1) (x.toRatio.2 * y.toRatio.2)

/-- **The quotient**, rounded. -/
def div (x y : Binary64) : Option Binary64 :=
  ofRatio (x.toRatio.1 * y.toRatio.2) (x.toRatio.2 * y.toRatio.1)

end Binary64

end Offside
