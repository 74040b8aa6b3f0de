import Offside.Proofs.Json.Quoted

/-!
# Numerals are scanned back

A numeral is written from left to right as it is scanned: a sign, the digits
of its whole part, a point with the digits after it, a letter with the
exponent. The whole part and the exponent are numbers that grow by a digit at
a time, in the writing and in the scan alike, and the induction is on how many
of their digits are written.

What is written has to be a numeral: the digits after the point are numbers,
and only those below ten are digits (`Numeral.HasDigits`). Nothing else can go
wrong. A numeral has no end of its own, so what is shown is that the scan of
it is complete where its text ends.
-/

namespace Offside

/-- **The digits after the point are digits.** -/
def Numeral.HasDigits (n : Numeral) : Prop := ∀ d ∈ n.fraction, d < 10

namespace Json

/-- The scan that goes on, if it does. -/
def NumberStep.next? : NumberStep → Option NumberScan
  | more scan => some scan
  | done _ | broken => none

theorem NumberStep.next?_eq_some {s : NumberStep} {next : NumberScan} :
    s.next? = some next ↔ s = .more next := by
  cases s <;> simp [next?]

namespace NumberScan

/-- **The scan after some text**, if the numeral goes on for all of it. -/
def advance (s : NumberScan) (text : List Char) : Option NumberScan :=
  text.foldlM (fun s c => (s.step c).next?) s

/-- The scan before the first digit. -/
def fresh (negative : Bool) : NumberScan := ⟨negative, 0, [], false, none, .minus⟩

/-- The scan after a whole part. -/
def afterWhole (negative : Bool) (whole : Nat) : NumberScan :=
  ⟨negative, whole, [], false, none, if whole = 0 then .zero else .whole⟩

variable {s next : NumberScan}

@[simp] theorem advance_nil (s : NumberScan) : s.advance [] = some s := rfl

theorem advance_cons {c : Char} (h : s.step c = .more next) (cs : List Char) :
    s.advance (c :: cs) = next.advance cs := by
  rw [advance, List.foldlM_cons, h]
  rfl

theorem advance_append {cs : List Char} (h : s.advance cs = some next) (cs' : List Char) :
    s.advance (cs ++ cs') = next.advance cs' := by
  unfold advance at h
  rw [advance, List.foldlM_append, h]
  rfl

/-! ## Digits -/

/-- A digit is read at its value. -/
theorem digitValue?_digitChar : ∀ d < 10, digitValue? (Nat.digitChar d) = some d := by
  decide

/-- A digit after the point is read at its value. -/
theorem digitValue?_ofNat : ∀ d < 10, digitValue? (Char.ofNat ('0'.toNat + d)) = some d := by
  decide

/-- A digit of a whole part or of an exponent. -/
theorem step_digitChar (s : NumberScan) {d : Nat} (h : d < 10) :
    s.step (Nat.digitChar d) = s.digitStep d := by
  rw [step, digitValue?_digitChar d h]

/-- **A whole part** is scanned as its number. -/
theorem advance_whole (negative : Bool) (n : Nat) :
    (fresh negative).advance (Nat.toDigits 10 n) = some (afterWhole negative n) := by
  induction n using Nat.strongRecOn with
  | _ n ih =>
    by_cases hn : n < 10
    · rw [Nat.toDigits_of_lt_base hn, advance_cons (step_digitChar _ hn), advance_nil]
      rfl
    · have hq : n / 10 ≠ 0 := by omega
      have hstep : (afterWhole negative (n / 10)).step (Nat.digitChar (n % 10))
          = .more (afterWhole negative n) := by
        rw [step_digitChar _ (by omega)]
        simp only [digitStep, afterWhole, if_neg hq, if_neg (show n ≠ 0 by omega),
          Nat.div_add_mod']
      rw [Nat.toDigits_of_base_le (by decide) (by omega),
        advance_append (ih (n / 10) (by omega)), advance_cons hstep, advance_nil]

/-- **Digits after the point** are kept one by one. -/
theorem advance_fraction {ds : List Nat} (hds : ∀ d ∈ ds, d < 10) (hne : ds ≠ [])
    (hs : s.phase = .point ∨ s.phase = .fraction) :
    s.advance (ds.map fun d => Char.ofNat ('0'.toNat + d))
      = some { s with revFraction := ds.reverse ++ s.revFraction, phase := .fraction } := by
  induction ds generalizing s with
  | nil => exact absurd rfl hne
  | cons d ds ih =>
    have hstep : s.step (Char.ofNat ('0'.toNat + d))
        = .more { s with revFraction := d :: s.revFraction, phase := .fraction } := by
      rw [step, digitValue?_ofNat d (hds d List.mem_cons_self)]
      rcases hs with hs | hs <;> simp only [digitStep, hs]
    rw [List.map_cons, advance_cons hstep]
    by_cases hds' : ds = []
    · rw [hds', List.map_nil, advance_nil]
      rfl
    · rw [ih (fun d hd => hds d (List.mem_cons_of_mem _ hd)) hds' (.inr rfl),
        List.reverse_cons, List.append_assoc, List.singleton_append]

/-- **The digits of an exponent** are scanned as its number. -/
theorem advance_exponent (n : Nat) (he : s.exponent = none)
    (hs : s.phase = .exponent ∨ s.phase = .exponentSign) :
    s.advance (Nat.toDigits 10 n)
      = some { s with exponent := some n, phase := .exponentDigit } := by
  induction n using Nat.strongRecOn with
  | _ n ih =>
    by_cases hn : n < 10
    · have hstep : s.step (Nat.digitChar n)
          = .more { s with exponent := some n, phase := .exponentDigit } := by
        rw [step_digitChar s hn]
        rcases hs with hs | hs <;> simp [digitStep, hs, he]
      rw [Nat.toDigits_of_lt_base hn, advance_cons hstep, advance_nil]
    · have hstep : { s with exponent := some (n / 10), phase := .exponentDigit }.step
            (Nat.digitChar (n % 10))
          = .more { s with exponent := some n, phase := .exponentDigit } := by
        rw [step_digitChar _ (by omega)]
        simp only [digitStep, Option.getD_some, Nat.div_add_mod']
      rw [Nat.toDigits_of_base_le (by decide) (by omega),
        advance_append (ih (n / 10) (by omega)), advance_cons hstep, advance_nil]

end NumberScan

end Json

namespace Numeral

open Json Json.NumberScan

/-! ## The text of a numeral -/

/-- The point and the digits after it, if there are any. -/
def fractionText (n : Numeral) : List Char :=
  if n.fraction.isEmpty then [] else '.' :: n.fraction.map fun d => Char.ofNat ('0'.toNat + d)

/-- The letter and the exponent after it, if there is one. -/
def exponentText (n : Numeral) : List Char :=
  match n.exponent with
  | none => []
  | some e => 'e' :: (toString e).toList

/-- A numeral without its sign. -/
def unsignedText (n : Numeral) : List Char :=
  Nat.toDigits 10 n.whole ++ n.fractionText ++ n.exponentText

theorem toList_text (n : Numeral) :
    n.text.toList = (if n.negative then ['-'] else []) ++ n.unsignedText := by
  have hsign : (if n.negative then "-" else "").toList = if n.negative then ['-'] else [] := by
    split <;> rfl
  have hfraction : (if n.fraction.isEmpty then ""
      else "." ++ String.ofList (n.fraction.map fun d => Char.ofNat ('0'.toNat + d))).toList
        = n.fractionText := by
    rw [fractionText]
    split
    · rfl
    · simp only [String.toList_append, String.toList_ofList]
      rfl
  rw [text, unsignedText, exponentText, String.toList_append, String.toList_append,
    String.toList_append, hsign, hfraction, Nat.toString_eq_ofList_toDigits,
    String.toList_ofList, List.append_assoc, List.append_assoc, List.append_assoc]
  cases n.exponent with
  | none => rfl
  | some e => rw [String.toList_append, show "e".toList = ['e'] from rfl, List.singleton_append]

variable {n : Numeral}

/-- **After the whole part and the digits after the point**, the scan stands
where an exponent may follow, and holds everything but the exponent. -/
theorem exists_advance_fraction (h : n.HasDigits) :
    ∃ s : NumberScan,
      (fresh n.negative).advance (Nat.toDigits 10 n.whole ++ n.fractionText) = some s
      ∧ s.numeral = { n with exponent := none } ∧ s.exponent = none ∧ s.exponentNegative = false
      ∧ (s.phase = .zero ∨ s.phase = .whole ∨ s.phase = .fraction) := by
  rw [advance_append (advance_whole n.negative n.whole), fractionText]
  split
  next he =>
    refine ⟨afterWhole n.negative n.whole, rfl, ?_, rfl, rfl, ?_⟩
    · rw [List.isEmpty_iff] at he
      simp only [numeral, afterWhole, he, List.reverse_nil]
      rfl
    · simp only [afterWhole]
      split
      · exact .inl rfl
      · exact .inr (.inl rfl)
  next he =>
    rw [List.isEmpty_iff] at he
    have hpoint : (afterWhole n.negative n.whole).step '.'
        = .more { afterWhole n.negative n.whole with phase := .point } := by
      by_cases hw : n.whole = 0 <;> simp only [afterWhole, hw, if_true, if_false] <;> rfl
    refine ⟨{ afterWhole n.negative n.whole with
      revFraction := n.fraction.reverse, phase := .fraction }, ?_, ?_, rfl, rfl, .inr (.inr rfl)⟩
    · rw [advance_cons hpoint, advance_fraction h he (.inl rfl)]
      simp only [afterWhole, List.append_nil]
    · simp only [numeral, afterWhole, List.reverse_reverse]
      rfl

/-- **An exponent** after a complete scan without one. -/
theorem exists_advance_exponent {s : NumberScan} (e : Int) (he : s.exponent = none)
    (hneg : s.exponentNegative = false)
    (hphase : s.phase = .zero ∨ s.phase = .whole ∨ s.phase = .fraction) :
    ∃ s' : NumberScan, s.advance ('e' :: (toString e).toList) = some s'
      ∧ s'.numeral = { s.numeral with exponent := some e } ∧ s'.phase = .exponentDigit := by
  have hletter : s.step 'e' = .more { s with phase := .exponent } := by
    rcases hphase with h | h | h <;>
      simp [step, otherStep, h, show digitValue? 'e' = none from rfl]
  rw [advance_cons hletter]
  cases e with
  | ofNat m =>
    have htext : (toString (Int.ofNat m)).toList = Nat.toDigits 10 m := by
      rw [show toString (Int.ofNat m) = toString m from rfl, Nat.toString_eq_ofList_toDigits,
        String.toList_ofList]
    rw [htext, advance_exponent (s := { s with phase := .exponent }) m he (.inl rfl)]
    exact ⟨_, rfl, by simp [numeral, hneg], rfl⟩
  | negSucc m =>
    have htext : (toString (Int.negSucc m)).toList = '-' :: Nat.toDigits 10 (m + 1) := by
      rw [show toString (Int.negSucc m) = "-" ++ toString (m + 1) from rfl,
        Nat.toString_eq_ofList_toDigits, String.toList_append, String.toList_ofList,
        String.toList_ofList, List.singleton_append]
    have hsign : { s with phase := .exponent }.step '-'
        = .more { s with exponentNegative := true, phase := .exponentSign } := rfl
    rw [htext, advance_cons hsign,
      advance_exponent (s := { s with exponentNegative := true, phase := .exponentSign })
        (m + 1) he (.inr rfl)]
    exact ⟨_, rfl, by simp [numeral, Int.negSucc_eq], rfl⟩

/-- **A numeral without its sign** is scanned to a complete scan of it. -/
theorem exists_advance_unsignedText (h : n.HasDigits) :
    ∃ s : NumberScan, (fresh n.negative).advance n.unsignedText = some s
      ∧ s.numeral = n ∧ s.isComplete = true := by
  obtain ⟨s, hs, hn, he, hneg, hphase⟩ := exists_advance_fraction h
  rw [unsignedText, advance_append hs, exponentText]
  cases hexp : n.exponent with
  | none =>
    refine ⟨s, rfl, ?_, ?_⟩
    · rw [hn, ← hexp]
    · rcases hphase with h | h | h <;> simp only [isComplete, h]
  | some e =>
    obtain ⟨s', hs', hn', hphase'⟩ := exists_advance_exponent e he hneg hphase
    refine ⟨s', hs', ?_, by simp only [isComplete, hphase']⟩
    rw [hn', hn, ← hexp]

end Numeral

namespace Json

namespace Scan

open NumberScan

/-! ## Numerals where a value may start -/

/-- A numeral goes on. -/
theorem run_number {s next : NumberScan} {frames : List Frame} {text : List Char}
    (h : s.advance text = some next) : (number s frames).run text = number next frames := by
  refine run_of_foldlM (fun s => number s frames) (fun hnext => ?_) h
  rw [step, NumberStep.next?_eq_some.mp hnext]

/-- A first digit where a value may start is the first digit of a numeral. -/
theorem step_value_digitChar (place : Place) (frames : List Frame) {d : Nat} (h : d < 10) :
    (value place frames).step (Nat.digitChar d)
      = (number (fresh false) frames).step (Nat.digitChar d) := by
  have hd : d = 0 ∨ d = 1 ∨ d = 2 ∨ d = 3 ∨ d = 4 ∨ d = 5 ∨ d = 6 ∨ d = 7 ∨ d = 8 ∨ d = 9 := by
    omega
  rcases hd with rfl | rfl | rfl | rfl | rfl | rfl | rfl | rfl | rfl | rfl <;> rfl

/-- A number is written with a digit in front. -/
theorem exists_toDigits_cons (n : Nat) :
    ∃ d < 10, ∃ cs, Nat.toDigits 10 n = Nat.digitChar d :: cs := by
  induction n using Nat.strongRecOn with
  | _ n ih =>
    by_cases hn : n < 10
    · exact ⟨n, hn, [], Nat.toDigits_of_lt_base hn⟩
    · obtain ⟨d, hd, cs, hcs⟩ := ih (n / 10) (by omega)
      refine ⟨d, hd, cs ++ [Nat.digitChar (n % 10)], ?_⟩
      rw [Nat.toDigits_of_base_le (by decide) (by omega), hcs, List.cons_append]

/-- **A numeral where a value may start** is scanned to a complete scan of it. -/
theorem exists_run_numeral (place : Place) (frames : List Frame) {n : Numeral}
    (h : n.HasDigits) :
    ∃ s : NumberScan, (value place frames).run n.text.toList = number s frames
      ∧ s.numeral = n ∧ s.isComplete = true := by
  obtain ⟨s, hs, hn, hcomplete⟩ := Numeral.exists_advance_unsignedText h
  refine ⟨s, ?_, hn, hcomplete⟩
  rw [Numeral.toList_text]
  cases hneg : n.negative with
  | true =>
    rw [hneg] at hs
    rw [if_pos rfl, List.singleton_append, run_cons,
      show (value place frames).step '-' = number (fresh true) frames from rfl]
    exact run_number hs
  | false =>
    rw [hneg] at hs
    rw [if_neg (by simp), List.nil_append]
    obtain ⟨d, hd, cs, hcs⟩ := exists_toDigits_cons n.whole
    have htext : n.unsignedText = Nat.digitChar d :: (cs ++ n.fractionText ++ n.exponentText) := by
      rw [Numeral.unsignedText, hcs, List.cons_append, List.cons_append]
    rw [← run_number hs, htext, run_cons, run_cons, step_value_digitChar place frames hd]

end Scan

end Json

end Offside
