import Offside.Json.Printer
import Offside.Json.Scan

/-!
# Quoted texts are scanned back

A text is quoted character by character, and what a character is written as
has up to six characters of its own. The scan of a string holds what the
string says so far, so the fact to prove is about one character: over what it
is written as, the scan goes on and holds that character more. The rest is a
run over the characters of the text.

The scan of a string can end or break off as well as go on. Within quotes it
only goes on, and `StringScan.advance` is the scan after some text that it
goes on for. The scan of the whole text goes on alongside
(`Scan.run_of_foldlM`).
-/

namespace Offside

namespace Json

/-- The scan that goes on, if it does. -/
def StringStep.next? : StringStep → Option StringScan
  | more scan => some scan
  | done _ | broken _ _ => none

theorem StringStep.next?_eq_some {s : StringStep} {next : StringScan} :
    s.next? = some next ↔ s = .more next := by
  cases s <;> simp [next?]

namespace StringScan

/-- **The scan after some text**, if the string goes on for all of it. -/
def advance (s : StringScan) (text : List Char) : Option StringScan :=
  text.foldlM (fun s c => (s.step c).next?) s

/-- The scan of a string that says `rev` so far, read backwards, outside an
escape and with nothing wrong. -/
def holding (rev : List Char) : StringScan := ⟨rev, none, .plain⟩

/-- The scan within the bytes after `\u`, with nothing wrong so far. -/
def withinHex (rev : List Char) (bytes value : Nat) : StringScan :=
  ⟨rev, none, .hex none bytes (some value)⟩

variable {s next : StringScan} {rev : List Char}

@[simp] theorem advance_nil (s : StringScan) : s.advance [] = some s := rfl

theorem advance_cons {c : Char} (h : s.step c = .more next) (cs : List Char) :
    s.advance (c :: cs) = next.advance cs := by
  rw [advance, List.foldlM_cons, h]
  rfl

theorem advance_append {cs : List Char} (h : s.advance cs = some next) (cs' : List Char) :
    s.advance (cs ++ cs') = next.advance cs' := by
  unfold advance at h
  rw [advance, List.foldlM_append, h]
  rfl

/-! ## Hexadecimal digits -/

/-- A digit below sixteen is one byte, and its value is read back. -/
theorem hexDigit_digitChar : ∀ d < 16,
    (Nat.digitChar d).utf8Size = 1 ∧ hexValue? (Nat.digitChar d) = some d := by
  decide

/-- A hexadecimal digit that is not the fourth. -/
theorem step_withinHex {bytes value d : Nat} (hd : d < 16) (hb : bytes + 1 < 4) :
    (withinHex rev bytes value).step (Nat.digitChar d)
      = .more (withinHex rev (bytes + 1) (value * 16 + d)) := by
  obtain ⟨hsize, hvalue⟩ := hexDigit_digitChar d hd
  simp only [step, withinHex, hsize, hvalue, Option.bind_some, Option.map_some, hb, if_true]

/-- The fourth hexadecimal digit completes a code unit. -/
theorem step_withinHex_last {value d : Nat} (hd : d < 16) (hv : value * 16 + d < 0xD800) :
    (withinHex rev 3 value).step (Nat.digitChar d)
      = .more (holding (Char.ofNat (value * 16 + d) :: rev)) := by
  obtain ⟨hsize, hvalue⟩ := hexDigit_digitChar d hd
  -- below the surrogates, a code unit is a character by itself
  have hfirst : isFirstHalf (value * 16 + d) = false := by
    simp only [isFirstHalf, Bool.and_eq_false_imp, decide_eq_true_eq, decide_eq_false_iff_not]
    omega
  have hsecond : isSecondHalf (value * 16 + d) = false := by
    simp only [isSecondHalf, Bool.and_eq_false_imp, decide_eq_true_eq, decide_eq_false_iff_not]
    omega
  simp only [step, withinHex, hsize, hvalue, Option.bind_some, Option.map_some, codeUnit,
    hfirst, hsecond, push, holding]
  rfl

/-- **Four hexadecimal digits** are read as the character they number. -/
theorem advance_fourHex {n : Nat} (h : n < 0xD800) :
    (withinHex rev 0 0).advance (fourHex n).toList = some (holding (Char.ofNat n :: rev)) := by
  have hmod : ∀ m : Nat, m % 16 < 16 := fun m => Nat.mod_lt m (by decide)
  have hn : ((0 * 16 + n / 4096 % 16) * 16 + n / 256 % 16) * 16 + n / 16 % 16 = n / 16 := by
    omega
  rw [fourHex, String.toList_ofList, List.map_cons, List.map_cons, List.map_cons, List.map_cons,
    List.map_nil,
    advance_cons (step_withinHex (hmod _) (by decide)),
    advance_cons (step_withinHex (hmod _) (by decide)),
    advance_cons (step_withinHex (hmod _) (by decide)), hn,
    advance_cons (step_withinHex_last (hmod _) (by omega)), advance_nil,
    Nat.div_add_mod']

/-! ## Characters and texts -/

/-- **Over what a character is written as**, the scan comes to hold it. -/
theorem advance_escapeChar (rev : List Char) (c : Char) :
    (holding rev).advance (escapeChar c).toList = some (holding (c :: rev)) := by
  unfold escapeChar
  split
  -- the quote, the backslash and the five with a letter of their own
  iterate 7 rfl
  next hquote hbackslash _ _ _ _ _ =>
    split
    next hcontrol =>
      have hu : ∀ cs : List Char, (holding rev).advance ('\\' :: 'u' :: cs)
          = (withinHex rev 0 0).advance cs := fun _ => rfl
      rw [String.toList_append, show "\\u".toList = ['\\', 'u'] from rfl, List.cons_append,
        List.cons_append, List.nil_append, hu, advance_fourHex (by omega), Char.ofNat_toNat]
    next hprintable =>
      have hstep : (holding rev).step c = .more (holding (c :: rev)) := by
        simp only [step, holding, plainStep, if_neg hquote, if_neg hbackslash,
          if_neg hprintable, push]
      rw [Char.toString_eq_singleton, String.toList_singleton, advance_cons hstep, advance_nil]

/-- **Over the characters of a text** the scan comes to hold the text. -/
theorem advance_escaped (cs : List Char) (rev : List Char) :
    (holding rev).advance (String.join (cs.map escapeChar)).toList
      = some (holding (cs.reverse ++ rev)) := by
  induction cs generalizing rev with
  | nil => rfl
  | cons c cs ih =>
    rw [List.map_cons, String.join_cons, String.toList_append,
      advance_append (advance_escapeChar rev c), ih, List.reverse_cons, List.append_assoc,
      List.singleton_append]

/-- The closing quote ends the string with the text it holds. -/
theorem step_holding_quote (rev : List Char) :
    (holding rev).step '"' = .done (.ok (String.ofList rev.reverse)) := rfl

end StringScan

namespace Scan

theorem run_append (s : Scan) (text text' : List Char) :
    s.run (text ++ text') = (s.run text).run text' := List.foldl_append

theorem run_cons (s : Scan) (c : Char) (text : List Char) :
    s.run (c :: text) = (s.step c).run text := rfl

@[simp] theorem run_nil (s : Scan) : s.run [] = s := rfl

/-- **Within a string or a number**, the scan of the text goes on as the scan of
that does. -/
theorem run_of_foldlM {σ : Type} (within : σ → Scan) {next? : σ → Char → Option σ}
    (hwithin : ∀ {s next : σ} {c : Char}, next? s c = some next →
      (within s).step c = within next)
    {s next : σ} {text : List Char} (h : text.foldlM next? s = some next) :
    (within s).run text = within next := by
  induction text generalizing s with
  | nil => rw [Option.some.inj h, run_nil]
  | cons c text ih =>
    rw [List.foldlM_cons] at h
    obtain ⟨after, hafter, hrest⟩ := Option.bind_eq_some_iff.mp h
    rw [run_cons, hwithin hafter, ih hrest]

theorem toList_quote (text : String) :
    (quote text).toList
      = '"' :: ((String.join (text.toList.map escapeChar)).toList ++ ['"']) := by
  rw [quote, String.toList_append, String.toList_append]
  rfl

/-- **Up to the closing quote**, which finds the whole text in the scan of the
string. -/
theorem run_escaped {within : StringScan → Scan}
    (hwithin : ∀ {s next : StringScan} {c : Char}, s.step c = .more next →
      (within s).step c = within next) (text : String) :
    (within .start).run ((String.join (text.toList.map escapeChar)).toList ++ ['"'])
      = (within (.holding text.toList.reverse)).step '"' := by
  have h := StringScan.advance_escaped text.toList []
  rw [List.append_nil] at h
  rw [run_append, show StringScan.start = .holding [] from rfl,
    run_of_foldlM within (fun hnext => hwithin (StringStep.next?_eq_some.mp hnext)) h, run_cons, run_nil]

/-- **A quoted text where a value may start** is that text. -/
theorem run_quote (place : Place) (frames : List Frame) (text : String) :
    (value place frames).run (quote text).toList = deliver (.string (.ok text)) frames := by
  have hwithin : ∀ {s next : StringScan} {c : Char}, s.step c = .more next →
      (string s frames).step c = string next frames := by
    intro s next c h
    rw [step, h]
  rw [toList_quote, run_cons,
    show (value place frames).step '"' = string .start frames from rfl,
    run_escaped hwithin, step, StringScan.step_holding_quote, List.reverse_reverse,
    String.ofList_toList]

/-- **A quoted text where a key may start** is that key. -/
theorem run_key (first : Bool) (before : List Member) (frames : List Frame) (key : String) :
    (someKey first before frames).run (quote key).toList = colon (.ok key) before frames := by
  have hwithin : ∀ {s next : StringScan} {c : Char}, s.step c = .more next →
      (keyString s before frames).step c = keyString next before frames := by
    intro s next c h
    rw [step, h]
  rw [toList_quote, run_cons,
    show (someKey first before frames).step '"' = keyString .start before frames from rfl,
    run_escaped hwithin, step, StringScan.step_holding_quote, List.reverse_reverse,
    String.ofList_toList]

end Scan

end Json

end Offside
