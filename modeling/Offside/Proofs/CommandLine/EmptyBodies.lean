import Offside.CommandLine.Arguments

/-!
# Who leaves bodies empty

No command line switches the filling of empty bodies on, and one switches it off if and
only if `--no-pass` is among its arguments, before the two dashes that end the options if
they are there (`passEmptyBodies_of_parseRequest`). That is not for free: the same letters
could be the value of another option, or be written in another way.

An argument is taken by `Given.take`. What it does to the switch, and whether options end
with it, is said once (`Given.heeds_take`), and the rest follows by induction on the
arguments.
-/

namespace Offside

/-- What comes after a step that went well. -/
theorem exists_of_bind_eq_ok {ε α β : Type} {x : Except ε α} {f : α → Except ε β} {b : β}
    (h : x >>= f = .ok b) : ∃ a, x = .ok a ∧ f a = .ok b := by
  cases x with
  | error e => cases h
  | ok a => exact ⟨a, rfl, h⟩

/-- A value for a place that has none yet is the value of the place. -/
theorem eq_of_fill {α : Type} {place value filled : Option α} (h : fill place value = .ok filled) :
    filled = value := by
  unfold fill at h
  split at h
  · cases h
    rfl
  · cases h

theorem OptionName.eq_noPass_of_long {o : OptionName} (h : o.long = "no-pass") : o = .noPass := by
  revert h
  cases o <;> decide

/-- **Whether `--no-pass` is among arguments**, before the dashes that end the options. -/
def asksForNoPass (args : List String) : Bool :=
  (args.takeWhile (· ≠ "--")).contains "--no-pass"

theorem asksForNoPass_cons (arg : String) (args : List String) :
    asksForNoPass (arg :: args)
      = (!(arg == "--") && (arg == "--no-pass" || asksForNoPass args)) := by
  rw [asksForNoPass, List.takeWhile_cons]
  by_cases h : arg = "--"
  · simp [h]
  · rw [if_pos (decide_eq_true h), List.contains_cons, beq_eq_false_iff_ne.mpr h, Bool.not_false,
      Bool.true_and, Bool.beq_comm]
    rfl

/-- An argument that is none of the two says nothing. -/
theorem asksForNoPass_of_ne {arg : String} (hdashes : arg ≠ "--") (hswitch : arg ≠ "--no-pass")
    (args : List String) : asksForNoPass (arg :: args) = asksForNoPass args := by
  rw [asksForNoPass_cons, beq_eq_false_iff_ne.mpr hdashes, beq_eq_false_iff_ne.mpr hswitch,
    Bool.not_false, Bool.true_and, Bool.false_or]

/-- An argument that does not start with two dashes is none of the two. -/
theorem ne_of_not_dashes {arg : String} (h : ∀ name, arg.toList ≠ '-' :: '-' :: name) :
    arg ≠ "--" ∧ arg ≠ "--no-pass" :=
  ⟨fun heq => h [] (by rw [heq]; rfl), fun heq => h "no-pass".toList (by rw [heq]; rfl)⟩

namespace Given

variable {g g' : Given} {o : OptionName} {text arg : String} {options : List OptionName}

/-- **The switch is left alone**, and so is whether options have ended. -/
structure Spares (g g' : Given) : Prop where
  passEmptyBodies_eq : g'.flags.passEmptyBodies = g.flags.passEmptyBodies
  ended_eq : g'.ended = g.ended

theorem Spares.refl (g : Given) : Spares g g := ⟨rfl, rfl⟩

theorem Spares.trans {g'' : Given} (h : Spares g g') (h' : Spares g' g'') : Spares g g'' :=
  ⟨h'.passEmptyBodies_eq.trans h.passEmptyBodies_eq, h'.ended_eq.trans h.ended_eq⟩

/-- No option with a value is about empty bodies. -/
theorem spares_value (h : g.value text o = .ok g') : Spares g g' := by
  cases o with
  | output | indent | lineEnding | callArguments =>
    obtain ⟨_, -, heq⟩ := exists_of_bind_eq_ok h
    cases heq
    exact ⟨rfl, rfl⟩
  | verbose | help | version | noPass => cases h

theorem spares_positional (h : g.positional text = .ok g') : Spares g g' := by
  obtain ⟨_, -, heq⟩ := exists_of_bind_eq_ok h
  cases heq
  exact ⟨rfl, rfl⟩

theorem spares_switch (hne : o ≠ .noPass) (h : g.switch o = .ok g') : Spares g g' := by
  cases o with
  | noPass => exact absurd rfl hne
  | verbose =>
    rw [switch] at h
    split at h
    · cases h
    · cases h
      exact ⟨rfl, rfl⟩
  | help | version | output | indent | lineEnding | callArguments => cases h

/-- The option that is about empty bodies has no letter. -/
theorem ne_noPass_of_letter {letter : Char}
    (h : options.find? (·.letter? == some letter) = some o) : o ≠ .noPass := by
  rintro rfl
  have hletter := List.find?_some h
  cases hletter

theorem spares_short {letters : List Char} (h : g.short options letters = .ok g') :
    Spares g g' := by
  induction letters generalizing g with
  | nil =>
    cases h
    exact .refl _
  | cons letter letters ih =>
    rw [short] at h
    cases hfind : options.find? (·.letter? == some letter) with
    | none =>
      simp only [hfind] at h
      cases h
    | some o =>
      simp only [hfind] at h
      split at h
      · split at h
        · cases h
          exact ⟨rfl, rfl⟩
        · exact spares_value h
        · exact spares_value h
      · obtain ⟨g₁, hswitch, hrest⟩ := exists_of_bind_eq_ok h
        exact (spares_switch (ne_noPass_of_letter hfind) hswitch).trans (ih hrest)

/-- The switch is turned by its own option. -/
theorem switch_noPass (h : g.switch .noPass = .ok g') :
    g'.ended = g.ended ∧ g'.flags.passEmptyBodies = some false := by
  obtain ⟨_, hfill, heq⟩ := exists_of_bind_eq_ok h
  cases heq
  exact ⟨rfl, eq_of_fill hfill⟩

/-- A long option turns the switch if it has the name of its option, and nothing but the
name. -/
theorem long_bodies {name : List Char} (h : g.long options name = .ok g') :
    g'.ended = g.ended
      ∧ g'.flags.passEmptyBodies
        = if name = "no-pass".toList then some false else g.flags.passEmptyBodies := by
  have hcut := List.takeWhile_append_dropWhile (p := fun c => decide (c ≠ '=')) (l := name)
  rw [long] at h
  cases hfind : options.find? (·.long == String.ofList (name.takeWhile (· ≠ '='))) with
  | none =>
    simp only [hfind] at h
    cases h
  | some o =>
    have hlong : o.long = String.ofList (name.takeWhile (· ≠ '=')) := by
      simpa using List.find?_some hfind
    cases hdrop : name.dropWhile (· ≠ '=') with
    | nil =>
      -- no value is attached, so the option that was found has the whole name
      simp only [hfind, hdrop] at h
      rw [hdrop, List.append_nil] at hcut
      rw [hcut] at hlong
      by_cases ho : o = .noPass
      · subst ho
        have hname : name = "no-pass".toList := String.ofList_inj.mp hlong.symm
        rw [if_pos hname]
        exact switch_noPass h
      · have hname : name ≠ "no-pass".toList := fun heq =>
          ho (OptionName.eq_noPass_of_long (by rw [hlong, heq]; rfl))
        have hs : Spares g g' := by
          split at h
          · cases h
            exact ⟨rfl, rfl⟩
          · exact spares_switch ho h
        rw [if_neg hname]
        exact ⟨hs.ended_eq, hs.passEmptyBodies_eq⟩
    | cons c attached =>
      -- a value is attached, and the switch takes none
      simp only [hfind, hdrop] at h
      have hname : name ≠ "no-pass".toList := by
        rintro rfl
        cases hdrop
      have hs : Spares g g' := by
        split at h
        · exact spares_value h
        · cases h
      rw [if_neg hname]
      exact ⟨hs.ended_eq, hs.passEmptyBodies_eq⟩

/-- **What an argument does to the switch**, and whether options end with it. -/
structure Heeds (arg : String) (g g' : Given) : Prop where
  ended_eq : g'.ended = (g.ended || arg == "--")
  passEmptyBodies_eq : g'.flags.passEmptyBodies
    = if g.ended = false ∧ arg = "--no-pass" then some false else g.flags.passEmptyBodies

/-- An argument that does not start with two dashes does nothing to the switch. -/
theorem Spares.heeds (h : Spares g g') (hname : ∀ name, arg.toList ≠ '-' :: '-' :: name) :
    Heeds arg g g' := by
  obtain ⟨hdashes, hswitch⟩ := ne_of_not_dashes hname
  exact ⟨by simp [h.ended_eq, hdashes], by simp [h.passEmptyBodies_eq, hswitch]⟩

theorem heeds_take (h : g.take options arg = .ok g') : Heeds arg g g' := by
  rw [take] at h
  split at h
  case isTrue hended =>
    have hs := spares_positional h
    exact ⟨by simp [hs.ended_eq, hended], by simp [hs.passEmptyBodies_eq, hended]⟩
  case isFalse hended =>
    rw [Bool.not_eq_true] at hended
    split at h
    case h_1 => cases h
    case h_2 hname =>
      have hs := spares_value h
      exact Spares.heeds ⟨hs.passEmptyBodies_eq, hs.ended_eq⟩ fun name => hname _ _
    case h_3 hdashes =>
      cases h
      obtain rfl : arg = "--" := String.toList_inj.mp hdashes
      exact ⟨by simp, by simp⟩
    -- two dashes and a name: only the name can be that of the switch
    case h_4 name hne _ hname =>
      obtain ⟨hended', hbodies⟩ := long_bodies h
      have hdashes : arg ≠ "--" := fun heq => by
        rw [heq] at hname
        cases hname
        exact hne rfl
      have hswitch : arg = "--no-pass" ↔ name = "no-pass".toList := by
        rw [← String.toList_inj, hname]
        exact ⟨fun heq => by cases heq; rfl, fun heq => by rw [heq]; rfl⟩
      exact ⟨by simp [hended', hdashes], by simp only [hbodies, hended, hswitch, true_and]⟩
    case h_5 c rest _ hc _ hname =>
      refine (spares_short h).heeds fun name heq => hc ?_
      rw [hname] at heq
      cases heq
      rfl
    case h_6 hname _ => exact (spares_positional h).heeds fun name => hname _

/-- **What arguments do to the switch**: it is turned if its option is among them. -/
theorem foldlM_take_bodies {args : List String} (h : args.foldlM (take options) g = .ok g') :
    g'.flags.passEmptyBodies
      = if g.ended = false ∧ asksForNoPass args = true then some false
        else g.flags.passEmptyBodies := by
  induction args generalizing g with
  | nil =>
    cases h
    simp [asksForNoPass]
  | cons arg args ih =>
    rw [List.foldlM_cons] at h
    obtain ⟨g₁, hfirst, hrest⟩ := exists_of_bind_eq_ok h
    obtain ⟨hended, hbodies⟩ := heeds_take hfirst
    rw [ih hrest, hended, hbodies, asksForNoPass_cons]
    cases g.ended with
    | true => simp
    | false =>
      by_cases hdashes : arg = "--"
      · simp [hdashes]
      · by_cases harg : arg = "--no-pass" <;> simp [hdashes, harg]

end Given

/-- No command is named like an option. -/
theorem ne_dash_of_commandNamed? {name : String} (h : (commandNamed? name).isSome = true)
    (cs : List Char) : name.toList ≠ '-' :: cs := by
  unfold commandNamed? at h
  split at h
  · simp
  · simp
  · simp
  · cases h

/-- The flags of a conversion are those that were given to it. -/
theorem flags_of_commandRequest {name : String} {before verbose : Bool}
    {options : List OptionName} {command : Path → Given → Command} {args : List String}
    {input : Path} {output : Option Path} {flags : Layer}
    (hnamed : commandNamed? name = some (options, command))
    (h : commandRequest before options command args
      = .ok (.command verbose (.convert input output flags))) :
    ∃ g, args.foldlM (Given.take options) {} = .ok g ∧ flags = g.flags := by
  unfold commandRequest at h
  obtain ⟨g, htaken, hrest⟩ := exists_of_bind_eq_ok h
  obtain ⟨g₁, hfold, hpending⟩ := exists_of_bind_eq_ok htaken
  refine ⟨g₁, hfold, ?_⟩
  obtain rfl : g₁ = g := by
    split at hpending
    · cases hpending
    · exact Except.ok.inj hpending
  cases hinput : g₁.input with
  | none =>
    simp only [hinput] at hrest
    cases hrest
  | some path =>
    simp only [hinput] at hrest
    obtain ⟨-, hcommand⟩ := Request.command.inj (Except.ok.inj hrest)
    unfold commandNamed? at hnamed
    split at hnamed
    case h_1 =>
      cases hnamed
      cases hcommand
      rfl
    case h_2 =>
      cases hnamed
      cases hcommand
      rfl
    case h_3 =>
      cases hnamed
      cases hcommand
    case h_4 => cases hnamed

/-- **A command line leaves bodies empty** if and only if `--no-pass` is among its arguments,
and no command line asks for the opposite. -/
theorem passEmptyBodies_of_parseRequest {g : Given} {args : List String} {verbose : Bool}
    {input : Path} {output : Option Path} {flags : Layer}
    (h : parseRequest g args = .ok (.command verbose (.convert input output flags))) :
    flags.passEmptyBodies = if asksForNoPass args then some false else none := by
  induction args generalizing g with
  | nil => cases h
  | cons arg args ih =>
    rw [parseRequest] at h
    split at h
    case h_1 options command hnamed =>
      obtain ⟨hdashes, hswitch⟩ := ne_of_not_dashes fun name =>
        ne_dash_of_commandNamed? (Option.isSome_of_eq_some hnamed) ('-' :: name)
      obtain ⟨g₁, hfold, rfl⟩ := flags_of_commandRequest hnamed h
      rw [asksForNoPass_of_ne hdashes hswitch, Given.foldlM_take_bodies hfold]
      simp
    -- before the command there are other options, and the switch is none of them
    case h_2 c rest hnone hlist =>
      obtain ⟨g₁, hfirst, hrest⟩ := exists_of_bind_eq_ok h
      have hdashes : arg ≠ "--" := fun heq => by
        rw [heq] at hlist
        cases hlist
      have hswitch : arg ≠ "--no-pass" := fun heq => by
        rw [heq] at hlist
        cases hlist
        cases hfirst
      rw [asksForNoPass_of_ne hdashes hswitch, ih hrest]
    case h_3 c rest hsecond hnone hlist =>
      split at h
      · cases h
      · rename_i hc
        obtain ⟨g₁, -, hrest⟩ := exists_of_bind_eq_ok h
        have hname : ∀ name, arg.toList ≠ '-' :: '-' :: name := fun name heq => by
          rw [hlist] at heq
          cases heq
          exact hc rfl
        obtain ⟨hdashes, hswitch⟩ := ne_of_not_dashes hname
        rw [asksForNoPass_of_ne hdashes hswitch, ih hrest]
    case h_4 hnone _ _ =>
      split at h
      · unfold helpRequest at h
        split at h
        · cases h
        · split at h <;> cases h
        · cases h
      · cases h

end Offside
