import Offside.Json.Numeral

/-!
# Scanning a numeral

A numeral is scanned one character at a time, and ends before the first
character that cannot belong to it. It may end there only if it is complete:
after its whole part, after a digit behind the point, after a digit of the
exponent. A zero is a whole part of its own, so a digit after it is an error
and no end.
-/

namespace Offside

namespace Json

/-- **The part of a numeral that was read last.** -/
inductive NumberPhase where
  /-- A minus sign. -/
  | minus
  /-- A whole part that is zero. -/
  | zero
  /-- A digit of the whole part. -/
  | whole
  /-- The point. -/
  | point
  /-- A digit behind the point. -/
  | fraction
  /-- The letter of the exponent. -/
  | exponent
  /-- The sign of the exponent. -/
  | exponentSign
  /-- A digit of the exponent. -/
  | exponentDigit
  deriving Repr, DecidableEq

/-- **A scan of a numeral.** -/
structure NumberScan where
  /-- Is there a minus sign? -/
  negative : Bool
  /-- The whole part so far. -/
  whole : Nat
  /-- The digits behind the point so far, the last one first. -/
  revFraction : List Nat
  /-- Does the exponent have a minus sign? -/
  exponentNegative : Bool
  /-- The exponent so far, without its sign; nothing before its first digit. -/
  exponent : Option Nat
  /-- Where the scan stands. -/
  phase : NumberPhase
  deriving Repr, DecidableEq

/-- What a character makes of a scan. -/
inductive NumberStep where
  /-- The numeral goes on. -/
  | more (scan : NumberScan)
  /-- The numeral ended before the character. -/
  | done (n : Numeral)
  /-- The numeral breaks off. -/
  | broken
  deriving Repr, DecidableEq

/-- The value of a decimal digit. -/
def digitValue? (c : Char) : Option Nat :=
  if '0' ≤ c ∧ c ≤ '9' then some (c.toNat - '0'.toNat) else none

namespace NumberScan

/-- The scan after a minus sign. -/
def startMinus : NumberScan := ⟨true, 0, [], false, none, .minus⟩

/-- The scan after a first digit, which decides whether a whole part can go on. -/
def firstDigit (s : NumberScan) (digit : Nat) : NumberScan :=
  { s with whole := digit, phase := if digit = 0 then .zero else .whole }

/-- The scan after a numeral that starts with a digit. -/
def startDigit (digit : Nat) : NumberScan := firstDigit ⟨false, 0, [], false, none, .minus⟩ digit

/-- The numeral, as far as it goes. -/
def numeral (s : NumberScan) : Numeral :=
  ⟨s.negative, s.whole, s.revFraction.reverse,
    s.exponent.map fun e => if s.exponentNegative then -(e : Int) else e⟩

/-- May the numeral end here? -/
def isComplete (s : NumberScan) : Bool :=
  match s.phase with
  | .zero | .whole | .fraction | .exponentDigit => true
  | .minus | .point | .exponent | .exponentSign => false

/-- A character that is no digit. -/
def otherStep (s : NumberScan) (c : Char) : NumberStep :=
  match s.phase with
  | .zero | .whole =>
    if c = '.' then .more { s with phase := .point }
    else if c = 'e' ∨ c = 'E' then .more { s with phase := .exponent }
    else .done s.numeral
  | .fraction =>
    if c = 'e' ∨ c = 'E' then .more { s with phase := .exponent } else .done s.numeral
  | .exponent =>
    if c = '+' then .more { s with phase := .exponentSign }
    else if c = '-' then .more { s with exponentNegative := true, phase := .exponentSign }
    else .broken
  | .exponentDigit => .done s.numeral
  | .minus | .point | .exponentSign => .broken

/-- A digit. -/
def digitStep (s : NumberScan) (digit : Nat) : NumberStep :=
  match s.phase with
  | .minus => .more (s.firstDigit digit)
  | .zero => .broken
  | .whole => .more { s with whole := s.whole * 10 + digit }
  | .point | .fraction =>
    .more { s with revFraction := digit :: s.revFraction, phase := .fraction }
  | .exponent | .exponentSign | .exponentDigit =>
    .more { s with exponent := some (s.exponent.getD 0 * 10 + digit), phase := .exponentDigit }

/-- **One character.** -/
def step (s : NumberScan) (c : Char) : NumberStep :=
  match digitValue? c with
  | some digit => s.digitStep digit
  | none => s.otherStep c

end NumberScan

end Json

end Offside
