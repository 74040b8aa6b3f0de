import Mathlib.Data.List.TakeWhile
import Offside.CommandLine.Arguments
import Offside.Proofs.Config.Layering
import Offside.Proofs.Json.Numerals

/-!
# Flags are layers

A flag of a conversion sets one option of the layout, so it is a layer (`Flag.layer`), and
flags one after the other are layers one after the other: whatever flags are given, each
at most once and in any order, what comes of the command line is their layers merged
(`ofArguments_flags`).
-/

namespace Offside

/-- **A flag**: a part of a command line that sets an option of the layout. -/
inductive Flag where
  /-- Spaces per level of nesting. -/
  | indent (width : UInt64)
  /-- What stands between two lines. -/
  | lineEnding (ending : LineEnding)
  /-- Which arguments of a call are kept. -/
  | callArguments (mode : CallArguments)
  /-- A body without text stays empty. -/
  | noPass
  deriving Repr, DecidableEq

namespace Flag

/-- The option of the command line that a flag is. -/
def name : Flag → OptionName
  | indent _ => .indent
  | lineEnding _ => .lineEnding
  | callArguments _ => .callArguments
  | noPass => .noPass

/-- The value that is given with a flag, if it takes one. -/
def value? : Flag → Option String
  | indent width => some (toString width.toNat)
  | lineEnding ending => some ending.name
  | callArguments mode => some mode.name
  | noPass => none

/-- **A flag as it is written**: its name and its value. -/
def arguments (f : Flag) : List String := ("--" ++ f.name.long) :: f.value?.toList

/-- **The layer of a flag** sets one option. -/
def layer : Flag → Layer
  | indent width => { indentWidth := some width.toNat }
  | lineEnding ending => { lineEnding := some ending }
  | callArguments mode => { callArguments := some mode }
  | noPass => { passEmptyBodies := some false }

end Flag

/-! ## Options that are set -/

/-- Whether a layer sets the option of the layout that an option of the command line is
about. -/
def Layer.isSet (l : Layer) : OptionName → Bool
  | .indent => l.indentWidth.isSome
  | .lineEnding => l.lineEnding.isSome
  | .callArguments => l.callArguments.isSome
  | .noPass => l.passEmptyBodies.isSome
  | .verbose | .help | .version | .output => false

theorem Layer.isSet_merge (earlier later : Layer) (o : OptionName) :
    (earlier.merge later).isSet o = (later.isSet o || earlier.isSet o) := by
  cases o <;> simp [isSet, merge, Option.isSome_or]

theorem Layer.isSet_unset (o : OptionName) : Layer.unset.isSet o = false := by
  cases o <;> rfl

/-- A flag sets its own option and no other. -/
theorem Flag.isSet_layer (f : Flag) (o : OptionName) : f.layer.isSet o = (f.name == o) := by
  cases f <;> cases o <;> rfl

/-! ## Values as they are written -/

theorem foldl_toDigits (n : Nat) :
    (Nat.toDigits 10 n).foldl (fun n c => n * 10 + (c.toNat - '0'.toNat)) 0 = n := by
  conv_rhs => rw [← Nat.ofDigitChars_ten_toDigits (n := n)]
  simp only [Nat.ofDigitChars, Nat.mul_comm]

/-- No text of a number starts like an option, or with a sign. -/
theorem head_toDigits_ne (n : Nat) {c : Char} (hc : c.isDigit = false) (cs : List Char) :
    Nat.toDigits 10 n ≠ c :: cs := by
  intro heq
  have hdigit : c.isDigit = true :=
    Nat.isDigit_of_mem_toDigits (b := 10) (n := n) (by decide) (by decide)
      (heq ▸ List.mem_cons_self)
  rw [hc] at hdigit
  cases hdigit

/-- **A number is read from its digits.** -/
theorem parseCount?_toString {n : Nat} (h : n ≤ maxCount) : parseCount? (toString n) = some n := by
  have hdigits : (Nat.toDigits 10 n).all (fun c => '0' ≤ c && c ≤ '9') = true :=
    List.all_eq_true.mpr fun c hc => Nat.isDigit_of_mem_toDigits (by decide) (by decide) hc
  have hne : (Nat.toDigits 10 n).isEmpty = false := by
    obtain ⟨d, -, cs, hcs⟩ := Json.Scan.exists_toDigits_cons n
    rw [hcs, List.isEmpty_cons]
  rw [parseCount?, Nat.toString_eq_ofList_toDigits, String.toList_ofList]
  split
  case h_1 digits heq => exact absurd heq (head_toDigits_ne n (by decide) digits)
  case h_2 =>
    rw [if_neg (by simp [hdigits, hne])]
    simp only [foldl_toDigits, if_pos h]

/-- A line ending is read from its name. -/
theorem LineEnding.parse_name (e : LineEnding) : parse e.name = .ok e := by
  have hlower : e.name.toLower = e.name := by cases e <;> decide +kernel
  rw [parse, hlower, ofName?_name]

/-- A choice of call arguments is read from its name. -/
theorem CallArguments.parse_name (m : CallArguments) : parse m.name = .ok m := by
  have hlower : m.name.toLower = m.name := by cases m <;> decide +kernel
  rw [parse, hlower, ofName?_name]

/-- No value of a flag looks like an option. -/
theorem Flag.value_ne_dash {f : Flag} {text : String} (h : f.value? = some text) (c : Char)
    (cs : List Char) : text.toList ≠ '-' :: c :: cs := by
  cases f with
  | indent width =>
    cases h
    rw [Nat.toString_eq_ofList_toDigits, String.toList_ofList]
    exact head_toDigits_ne _ (by decide) _
  | lineEnding ending =>
    cases h
    cases ending <;> simp [LineEnding.name]
  | callArguments mode =>
    cases h
    cases mode <;> simp [CallArguments.name]
  | noPass => cases h

/-! ## Names of options -/

theorem OptionName.long_ne (o : OptionName) : o.long ≠ "" := by
  cases o <;> decide

theorem OptionName.not_mem_long (o : OptionName) : '=' ∉ o.long.toList := by
  cases o <;> decide

namespace Flag

/-- A flag is an option of a conversion. -/
theorem find?_name (f : Flag) :
    OptionName.ofConvert.find? (·.long == f.name.long) = some f.name := by
  cases f <;> rfl

theorem takesValue_name (f : Flag) : f.name.takesValue = f.value?.isSome := by
  cases f <;> rfl

end Flag

/-! ## Taking a flag -/

namespace Given

/-- **More options may follow**: no value is awaited, and options have not ended. -/
structure IsOpen (g : Given) : Prop where
  pending_eq : g.pending = none
  ended_eq : g.ended = false

variable {g : Given}

/-- What stands behind two dashes is a long option. -/
theorem take_long (hopen : g.IsOpen) (options : List OptionName) {name : String} (hne : name ≠ "") :
    g.take options ("--" ++ name) = g.long options name.toList := by
  have hlist : ("--" ++ name).toList = '-' :: '-' :: name.toList := String.toList_append
  rw [take, hopen.ended_eq, hopen.pending_eq, hlist]
  cases hname : name.toList with
  | nil => exact absurd (String.toList_inj.mp hname) hne
  | cons c cs => rfl

/-- **A long option is found by its name**, and its value is awaited if it takes one. -/
theorem long_of_find? {options : List OptionName} {name : String} {o : OptionName}
    (hfind : options.find? (·.long == name) = some o) (hname : '=' ∉ name.toList) :
    g.long options name.toList
      = if o.takesValue then .ok { g with pending := some o } else g.switch o := by
  have hall : ∀ c ∈ name.toList, decide (c ≠ '=') = true := fun c hc =>
    decide_eq_true fun heq => hname (heq ▸ hc)
  rw [long, List.takeWhile_eq_self_iff.mpr hall, List.dropWhile_eq_nil_iff.mpr hall,
    String.ofList_toList, hfind]

/-- A text that does not look like an option is the value that is awaited. -/
theorem take_awaited {options : List OptionName} {o : OptionName} {text : String}
    (hended : g.ended = false) (hpending : g.pending = some o)
    (htext : ∀ c cs, text.toList ≠ '-' :: c :: cs) :
    g.take options text = { g with pending := none }.value text o := by
  rw [take, hended, hpending, if_neg Bool.false_ne_true]
  split
  case h_1 c cs _ hcs => exact absurd hcs (htext c cs)
  case h_2 heq _ =>
    cases heq
    rfl
  all_goals contradiction

/-- **The value of a flag** sets its option. -/
theorem value_of_flag {f : Flag} {text : String} (hvalue : f.value? = some text)
    (hfree : g.flags.isSet f.name = false) :
    g.value text f.name = .ok { g with flags := g.flags.merge f.layer } := by
  cases f with
  | indent width =>
    cases hvalue
    have hnone : g.flags.indentWidth = none := by
      simpa [Flag.name, Layer.isSet] using hfree
    have hcount := parseCount?_toString (Nat.le_of_lt_succ width.toNat_lt)
    simp only [Flag.name, value, hnone, hcount, fill]
    rfl
  | lineEnding ending =>
    cases hvalue
    have hnone : g.flags.lineEnding = none := by
      simpa [Flag.name, Layer.isSet] using hfree
    simp only [Flag.name, value, hnone, LineEnding.parse_name, Except.toOption, fill]
    rfl
  | callArguments mode =>
    cases hvalue
    have hnone : g.flags.callArguments = none := by
      simpa [Flag.name, Layer.isSet] using hfree
    simp only [Flag.name, value, hnone, CallArguments.parse_name, Except.toOption, fill]
    rfl
  | noPass => cases hvalue

/-- A flag without a value sets its option. -/
theorem switch_of_flag {f : Flag} (hvalue : f.value? = none)
    (hfree : g.flags.isSet f.name = false) :
    g.switch f.name = .ok { g with flags := g.flags.merge f.layer } := by
  cases f with
  | noPass =>
    have hnone : g.flags.passEmptyBodies = none := by
      simpa [Flag.name, Layer.isSet] using hfree
    simp only [Flag.name, switch, hnone, fill]
    rfl
  | indent width => cases hvalue
  | lineEnding ending => cases hvalue
  | callArguments mode => cases hvalue

/-- **A flag is taken**, and its layer is merged onto those of the flags before it. -/
theorem foldlM_take_flag (f : Flag) (hopen : g.IsOpen) (hfree : g.flags.isSet f.name = false) :
    f.arguments.foldlM (take OptionName.ofConvert) g
      = .ok { g with flags := g.flags.merge f.layer } := by
  have hname := long_of_find? (g := g) f.find?_name f.name.not_mem_long
  rw [Flag.arguments, List.foldlM_cons, take_long hopen _ f.name.long_ne, hname, f.takesValue_name]
  cases hvalue : f.value? with
  | none =>
    rw [Option.isSome_none, if_neg Bool.false_ne_true, switch_of_flag hvalue hfree]
    rfl
  | some text =>
    have htaken : { g with pending := some f.name }.take OptionName.ofConvert text
        = .ok { g with pending := none, flags := g.flags.merge f.layer } :=
      (take_awaited (g := { g with pending := some f.name }) hopen.ended_eq rfl
        (Flag.value_ne_dash hvalue)).trans (value_of_flag hvalue hfree)
    rw [Option.isSome_some, if_pos rfl, Option.toList_some]
    simp only [List.foldlM_cons, List.foldlM_nil, bind_pure]
    exact htaken.trans (by rw [hopen.pending_eq])

/-- **Flags are taken one after the other**, and their layers are merged. -/
theorem foldlM_take_flags (flags : List Flag) (hopen : g.IsOpen)
    (hfree : ∀ f ∈ flags, g.flags.isSet f.name = false) (hnodup : (flags.map Flag.name).Nodup) :
    (flags.flatMap Flag.arguments).foldlM (take OptionName.ofConvert) g
      = .ok { g with flags := g.flags.merge (.mergeAll (flags.map Flag.layer)) } := by
  induction flags generalizing g with
  | nil =>
    rw [List.map_nil, Layer.mergeAll_nil, Layer.merge_unset]
    rfl
  | cons f flags ih =>
    obtain ⟨hfirst, hrest⟩ := List.forall_mem_cons.mp hfree
    obtain ⟨hnew, hnodup'⟩ := List.nodup_cons.mp hnodup
    -- the flag sets its own option and no other, and no later flag has its name
    have hfree' : ∀ f' ∈ flags, (g.flags.merge f.layer).isSet f'.name = false := by
      intro f' hf'
      have hne : f.name ≠ f'.name := fun heq => hnew (heq ▸ List.mem_map_of_mem hf')
      rw [Layer.isSet_merge, Flag.isSet_layer, hrest f' hf', Bool.or_false]
      exact beq_eq_false_iff_ne.mpr hne
    rw [List.flatMap_cons, List.foldlM_append, foldlM_take_flag f hopen hfirst]
    refine (ih (g := { g with flags := g.flags.merge f.layer }) ⟨hopen.pending_eq, hopen.ended_eq⟩
      hfree' hnodup').trans ?_
    rw [List.map_cons, Layer.mergeAll_cons, Layer.merge_assoc]

/-- A text that does not start like an option is the input. -/
theorem take_input {text : String} (hne : text ≠ "") (hdash : text.toList.head? ≠ some '-')
    (hopen : g.IsOpen) (hinput : g.input = none) (options : List OptionName) :
    g.take options text = .ok { g with input := some ⟨text⟩ } := by
  have hpositional : g.positional text = .ok { g with input := some ⟨text⟩ } := by
    rw [positional, hinput, parsePath?, if_neg hne]
    rfl
  have hstart : ∀ cs, text.toList ≠ '-' :: cs := fun cs heq => hdash (by rw [heq]; rfl)
  have hpending : ∀ o, g.pending ≠ some o := fun o heq => by
    rw [hopen.pending_eq] at heq
    cases heq
  rw [take, if_neg (by rw [hopen.ended_eq]; decide)]
  split
  case h_1 o _ _ heq _ => exact absurd heq (hpending o)
  case h_2 o heq _ => exact absurd heq (hpending o)
  case h_3 _ heq => exact absurd heq (hstart _)
  case h_4 _ _ heq => exact absurd heq (hstart _)
  case h_5 _ _ _ heq => exact absurd heq (hstart _)
  case h_6 => exact hpositional

end Given

/-- **What comes of flags** is their layers, merged in the order in which they are given. -/
theorem ofArguments_flags {input : String} (hne : input ≠ "")
    (hdash : input.toList.head? ≠ some '-') {flags : List Flag}
    (hnodup : (flags.map Flag.name).Nodup) :
    Request.ofArguments ("convert" :: input :: flags.flatMap Flag.arguments)
      = some (.command false (.convert ⟨input⟩ none (.mergeAll (flags.map Flag.layer)))) := by
  have htaken : Given.ofArguments OptionName.ofConvert {} (input :: flags.flatMap Flag.arguments)
      = .ok { input := some ⟨input⟩, flags := .mergeAll (flags.map Flag.layer) } := by
    have hflags := Given.foldlM_take_flags (g := { input := some ⟨input⟩ }) flags ⟨rfl, rfl⟩
      (fun f _ => Layer.isSet_unset f.name) hnodup
    rw [Given.ofArguments, List.foldlM_cons, Given.take_input hne hdash ⟨rfl, rfl⟩ rfl]
    exact (congrArg (· >>= _) hflags).trans
      (congrArg (fun l : Layer => (Except.ok { input := some ⟨input⟩, flags := l } :
        Except Stop Given)) (Layer.unset_merge _))
  have hparsed : parseRequest {} ("convert" :: input :: flags.flatMap Flag.arguments)
      = .ok (.command false (.convert ⟨input⟩ none (.mergeAll (flags.map Flag.layer)))) := by
    rw [parseRequest, commandNamed?]
    simp only [commandRequest, htaken]
    rfl
  rw [Request.ofArguments, hparsed]

end Offside
