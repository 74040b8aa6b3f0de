import Mathlib.Data.List.Induction
import Offside.Proofs.Convert.Effects
import Offside.Proofs.Convert.Outputs
import Offside.Proofs.Files.Places

/-!
# Conversions in any order

Inputs that are converted one after the other leave files, and which files they leave
could depend on the order: a conversion might overwrite the output of another, or its
input. If different paths name different files (`NamesApart`), it does not
(`convertAll_order`). No output is the input of a conversion, and two conversions have
the same output only if they have the same input.

What a conversion writes is told by the tree that it starts from (`writes?`). That is
the same for the tree of the beginning and for any tree that conversions have left, since
these have changed no directory and no input. So after any conversions the tree has at
each place what one of them writes there, and elsewhere what was there at the beginning
(`Converted`), and the order is forgotten.
-/

namespace Offside

open FileTree

variable {ε α β : Type}

/-! ## What a conversion writes -/

/-- The text of the file that a path leads to. -/
def sourceAt? (t : FileTree) (start : Location) (p : Path) : Option String :=
  (t.filePlace? start p).bind fun l => (t.fileAt? l).bind String.fromUTF8?

/-- The program in the file that a path leads to, if the path is accepted. -/
def programAt? (t : FileTree) (start : Location) (p : Path) : Option Program :=
  if (formatOf? p).isSome then
    (sourceAt? t start p).bind fun source => (Program.ofSource source).run.value.toOption
  else none

/-- **What a conversion writes**: the place of the output, and the text of the program. -/
def writes? (o : Options) (t : FileTree) (start : Location) (input : Path) :
    Option (Location × ByteArray) :=
  (programAt? t start input).bind fun program =>
    (t.filePlace? start (defaultOutput input)).map fun l => (l, (program.render o).value.toUTF8)

section Writes

variable {t t' : FileTree} {start l : Location} {p q : Path} {o : Options} {bytes : ByteArray}

/-- A program is read from a place. -/
theorem exists_filePlace?_of_programAt? {program : Program}
    (h : programAt? t start p = some program) : ∃ m, t.filePlace? start p = some m := by
  unfold programAt? at h
  split at h
  · obtain ⟨source, hsource, -⟩ := Option.bind_eq_some_iff.mp h
    obtain ⟨m, hm, -⟩ := Option.bind_eq_some_iff.mp hsource
    exact ⟨m, hm⟩
  · cases h

/-- **The program is told by the place**, and by what is in the file there. -/
theorem programAt?_congr (hformat : formatOf? p = formatOf? q)
    (hplace : t.filePlace? start p = t'.filePlace? start q)
    (hfile : ∀ m, t.filePlace? start p = some m → t.fileAt? m = t'.fileAt? m) :
    programAt? t start p = programAt? t' start q := by
  have hsource : sourceAt? t start p = sourceAt? t' start q := by
    unfold sourceAt?
    rw [← hplace]
    exact Option.bind_congr fun m hm => by rw [hfile m hm]
  rw [programAt?, programAt?, hformat, hsource]

/-- **What is written is the text of a program**, at the place of the output. -/
theorem writes?_eq_some_iff :
    writes? o t start p = some (l, bytes)
      ↔ ∃ program, programAt? t start p = some program
        ∧ t.filePlace? start (defaultOutput p) = some l
        ∧ (program.render o).value.toUTF8 = bytes := by
  unfold writes?
  simp [Option.bind_eq_some_iff, Option.map_eq_some_iff]

end Writes

/-! ## Following a conversion in a world -/

/-- **The files and the directory are the same.** -/
structure Still (w w' : World) : Prop where
  /-- No file has changed. -/
  files_eq : w'.files = w.files
  /-- The directory is the same. -/
  directory_eq : w'.directory = w.directory

theorem Still.trans {w w' w'' : World} (h : Still w w') (h' : Still w' w'') : Still w w'' :=
  ⟨h'.files_eq.trans h.files_eq, h'.directory_eq.trans h.directory_eq⟩

/-- **A command that answers and changes no file.** -/
def Keeps (x : ExceptT ε (StateM World) α) (w : World) (a : α) : Prop :=
  After x w fun r w' => r = .ok a ∧ Still w w'

theorem Keeps.bind_after {x : ExceptT ε (StateM World) α} {w : World} {a : α}
    {f : α → ExceptT ε (StateM World) β} {R : Except ε β → World → Prop} (h : Keeps x w a)
    (hf : ∀ w', Still w w' → After (f a) w' R) : After (x >>= f) w R := by
  refine After.bind h ?_ ?_
  · rintro _ w' ⟨⟨⟩, hw⟩
    exact hf w' hw
  · rintro e w' ⟨⟨⟩, -⟩

theorem keeps_log (e : Event) (w : World) :
    Keeps (MonadFiles.log e : ExceptT ε (StateM World) Unit) w () :=
  After.lift ⟨rfl, rfl, rfl⟩

theorem keeps_replay (x : Logged α) (w : World) :
    Keeps (MonadFiles.replay x : ExceptT ε (StateM World) α) w x.value := by
  have hlog : ∀ (events : List Event) (w : World),
      Keeps (ε := ε) (events.forM MonadFiles.log) w () := by
    intro events
    induction events with
    | nil => exact fun w => .pure ⟨rfl, rfl, rfl⟩
    | cons e events ih =>
      exact fun w => (keeps_log e w).bind_after fun w' h =>
        (ih w').imp fun _ _ hr => ⟨hr.1, h.trans hr.2⟩
  exact (hlog x.events w).bind_after fun w' h => .pure ⟨rfl, h⟩

theorem keeps_readText (p : Path) (w : World) :
    Keeps (MonadFiles.readText p : ExceptT ε (StateM World) _) w
      (textOf (w.files.read w.directory p)) := by
  rw [readText_eq_lift, readText_eq_map]
  exact After.lift ⟨rfl, rfl, rfl⟩

theorem toOption_textOf (read : Except FileError ByteArray) :
    (textOf read).toOption = read.toOption.bind String.fromUTF8? := by
  cases read with
  | error e => rfl
  | ok bytes =>
    simp only [textOf, bind, Except.bind]
    split
    case h_1 text htext => exact htext.symm
    case h_2 htext => exact htext.symm

/-- The text that is read is the text of the file that is there. -/
theorem toOption_textOf_read (t : FileTree) (start : Location) (p : Path) :
    (textOf (t.read start p)).toOption = sourceAt? t start p := by
  have hread : (t.read start p).toOption
      = (t.filePlace? start p).bind fun l => t.fileAt? l := by
    ext bytes
    rw [Option.bind_eq_some_iff, ← read_eq_ok_iff]
    cases t.read start p <;> simp [Except.toOption]
  rw [toOption_textOf, hread, Option.bind_assoc]
  rfl

/-- **Reading a program changes no file**, and comes to the program that is there. -/
theorem after_readProgram_world (input : Path) (w : World) :
    After (readProgram input : ExceptT Failure (StateM World) Program) w fun r w' =>
      r.toOption = programAt? w.files w.directory input ∧ Still w w' := by
  unfold readProgram programAt?
  by_cases hformat : (formatOf? input).isSome = true
  · have haccepted : ¬ (formatOf? input).isNone = true := by
      rw [Bool.not_eq_true, Option.isNone_eq_false_iff]
      exact hformat
    rw [if_neg haccepted, if_pos hformat, ← toOption_textOf_read]
    refine (keeps_readText input w).bind_after fun w₁ h₁ => ?_
    cases textOf (w.files.read w.directory input) with
    | error e => exact .throw ⟨rfl, h₁⟩
    | ok source =>
      refine (keeps_replay _ w₁).bind_after fun w₂ h₂ => ?_
      show After _ w₂ fun r w' => r.toOption = (Program.ofSource source).run.value.toOption ∧ _
      cases (Program.ofSource source).run.value with
      | error e => exact .throw ⟨rfl, h₁.trans h₂⟩
      | ok program =>
        exact (keeps_log _ w₂).bind_after fun w₃ h₃ => .pure ⟨rfl, (h₁.trans h₂).trans h₃⟩
  · rw [if_pos (by simpa using hformat), if_neg hformat]
    exact .throw ⟨rfl, rfl, rfl⟩

/-- The tree with something written to it. -/
def FileTree.after (t : FileTree) : Option (Location × ByteArray) → FileTree
  | none => t
  | some (l, bytes) => t.set l (.file bytes)

theorem FileTree.get?_after_self (t : FileTree) {l : Location} (hl : l ≠ []) (bytes : ByteArray) :
    (t.after (some (l, bytes))).get? l = some (.file bytes) := t.get?_set hl _

theorem FileTree.get?_after_of_ne (t : FileTree) {written : Option (Location × ByteArray)}
    {m : Location} (h : ∀ bytes, written ≠ some (m, bytes)) :
    (t.after written).get? m = t.get? m := by
  cases written with
  | none => rfl
  | some change =>
    obtain ⟨l, bytes⟩ := change
    exact t.get?_set_of_ne (fun heq => h bytes (by rw [heq])) _

/-- **A text is written at the place of a path**, if there is one. -/
theorem after_writeText (p : Path) (text : String) (w : World) :
    After (MonadFiles.writeText p text : ExceptT ε (StateM World) _) w fun r w' =>
      (∃ answer, r = .ok answer)
        ∧ w'.files = w.files.after
          ((w.files.filePlace? w.directory p).map fun l => (l, text.toUTF8))
        ∧ w'.directory = w.directory := by
  refine After.lift (x := (MonadFiles.writeBytes p text.toUTF8 : StateM World _)) ⟨⟨_, rfl⟩, ?_⟩
  rw [World.run_writeBytes]
  cases hwrite : w.files.write w.directory p text.toUTF8 with
  | error e =>
    have hnone : w.files.filePlace? w.directory p = none := by
      rw [Option.eq_none_iff_forall_ne_some]
      intro l hplace
      cases hwrite.symm.trans (write_eq_ok_iff.mpr ⟨l, hplace, rfl⟩)
    rw [hnone]
    exact ⟨rfl, rfl⟩
  | ok files =>
    obtain ⟨l, hplace, rfl⟩ := write_eq_ok_iff.mp hwrite
    rw [hplace]
    exact ⟨rfl, rfl⟩

/-- **Delivering a text to a file** writes it, and changes nothing else. -/
theorem after_deliver_world (output : Path) (text : String) (w : World) :
    After (deliver (.file output) text : ExceptT Failure (StateM World) Unit) w fun _ w' =>
      w'.files = w.files.after
          ((w.files.filePlace? w.directory output).map fun l => (l, text.toUTF8))
        ∧ w'.directory = w.directory := by
  refine (after_writeText output text w).bind ?_ ?_
  · rintro answer w₁ ⟨-, h₁⟩
    cases answer with
    | error e => exact .throw h₁
    | ok _ =>
      exact (keeps_log _ w₁).imp fun _ w₂ h₂ =>
        ⟨h₂.2.files_eq.trans h₁.1, h₂.2.directory_eq.trans h₁.2⟩
  · rintro _ w₁ ⟨⟨_, ⟨⟩⟩, -⟩

/-- **A conversion changes the tree by what it writes.** -/
theorem conversionIn_none (w : World) (input : Path) (o : Options) :
    (conversionIn w input none o).2.files
        = w.files.after (writes? o w.files w.directory input)
      ∧ (conversionIn w input none o).2.directory = w.directory := by
  have hconvert : After (convertFile input none o :
      ExceptT Failure (StateM World) (Destination × String)) w fun _ w' =>
      w'.files = w.files.after (writes? o w.files w.directory input)
        ∧ w'.directory = w.directory := by
    refine (after_readProgram_world input w).bind ?_ ?_
    · rintro program w₁ ⟨hprogram, h₁⟩
      rw [writes?, ← hprogram]
      refine (keeps_replay _ w₁).bind_after fun w₂ h₂ => ?_
      have h := h₁.trans h₂
      have hdelivered := after_deliver_world (defaultOutput input) (program.render o).value w₂
      rw [h.files_eq, h.directory_eq] at hdelivered
      exact hdelivered.bind (fun _ _ hleft => .pure hleft) fun _ _ hleft => hleft
    · rintro f w₁ ⟨hprogram, h₁⟩
      rw [writes?, ← hprogram]
      exact ⟨h₁.files_eq, h₁.directory_eq⟩
  exact hconvert

/-! ## Paths that name different files -/

/-- **Different paths name different files**: of these paths, those that lead to one
place are the same. -/
def NamesApart (w : World) (paths : List Path) : Prop :=
  ∀ p ∈ paths, ∀ q ∈ paths, (w.files.placeOf? w.directory p).isSome = true →
    w.files.placeOf? w.directory p = w.files.placeOf? w.directory q → p.isSame q = true

instance decidableNamesApart (w : World) (paths : List Path) : Decidable (NamesApart w paths) :=
  inferInstanceAs (Decidable (∀ p ∈ paths, ∀ q ∈ paths, _ = true → _ = _ → _ = true))

theorem NamesApart.isSame {w : World} {paths : List Path} {p q : Path} {l : Location}
    (h : NamesApart w paths) (hp : p ∈ paths) (hq : q ∈ paths)
    (hplace : w.files.placeOf? w.directory p = some l)
    (hplace' : w.files.placeOf? w.directory q = some l) : p.isSame q = true :=
  h p hp q hq (Option.isSome_of_eq_some hplace) (hplace.trans hplace'.symm)

/-- **Inputs that are converted without an output being named**: all are accepted, and
they and their outputs name different files. -/
structure Inputs (w : World) (inputs : List Path) : Prop where
  /-- All are accepted. -/
  accepted : ∀ p ∈ inputs, (formatOf? p).isSome = true
  /-- They and their outputs name different files. -/
  apart : NamesApart w (inputs ++ inputs.map defaultOutput)

namespace Inputs

variable {o : Options} {w : World} {inputs : List Path} {p q : Path} {l m : Location}
  {bytes bytes' : ByteArray}

/-- The output of an input is among the paths that name different files. -/
theorem defaultOutput_mem (hp : p ∈ inputs) :
    defaultOutput p ∈ inputs ++ inputs.map defaultOutput :=
  List.mem_append_right _ (List.mem_map_of_mem hp)

/-- **No input is written.** -/
theorem ne_of_writes? (h : Inputs w inputs) (hp : p ∈ inputs) (hq : q ∈ inputs)
    (hplace : w.files.placeOf? w.directory p = some m)
    (hwrites : writes? o w.files w.directory q = some (l, bytes)) : m ≠ l := by
  rintro rfl
  obtain ⟨program, -, houtput, -⟩ := writes?_eq_some_iff.mp hwrites
  have hsame : (defaultOutput q).isSame p = true :=
    h.apart.isSame (defaultOutput_mem hq) (List.mem_append_left _ hp) (of_filePlace? houtput).1
      hplace
  have hnone := formatOf?_eq_none_of_isSame_defaultOutput (h.accepted q hq) hsame
  exact absurd (h.accepted p hp) (by rw [hnone]; decide)

/-- **Whoever writes at a place writes the same there.** -/
theorem writes?_unique (h : Inputs w inputs) (hp : p ∈ inputs) (hq : q ∈ inputs)
    (hwrites : writes? o w.files w.directory p = some (l, bytes))
    (hwrites' : writes? o w.files w.directory q = some (l, bytes')) : bytes = bytes' := by
  obtain ⟨program, hprogram, houtput, rfl⟩ := writes?_eq_some_iff.mp hwrites
  obtain ⟨program', hprogram', houtput', rfl⟩ := writes?_eq_some_iff.mp hwrites'
  -- the outputs are the same path, and so the inputs are
  have hsame : p.isSame q = true :=
    isSame_of_isSame_defaultOutput (h.accepted p hp) (h.accepted q hq)
      (h.apart.isSame (defaultOutput_mem hp) (defaultOutput_mem hq) (of_filePlace? houtput).1
        (of_filePlace? houtput').1)
  obtain ⟨m, hm⟩ := exists_filePlace?_of_programAt? hprogram
  obtain ⟨m', hm'⟩ := exists_filePlace?_of_programAt? hprogram'
  obtain rfl := placeOf?_eq_of_isSame hsame (of_filePlace? hm).1 (of_filePlace? hm').1
  have hformat : formatOf? p = formatOf? q := by
    unfold formatOf?
    rw [formatOf?_isSome_iff.mp (h.accepted p hp), formatOf?_isSome_iff.mp (h.accepted q hq)]
  have heq : programAt? w.files w.directory p = programAt? w.files w.directory q :=
    programAt?_congr hformat (hm.trans hm'.symm) fun _ _ => rfl
  obtain rfl := Option.some.inj (hprogram.symm.trans (heq.trans hprogram'))
  rfl

end Inputs

/-! ## Worlds that conversions have left -/

/-- **A world after conversions** of these inputs. -/
structure Converted (o : Options) (w : World) (inputs : List Path) (w' : World) : Prop where
  /-- The directory is the same. -/
  directory_eq : w'.directory = w.directory
  /-- What a conversion writes is there. -/
  get?_of_writes {p l bytes} : p ∈ inputs → writes? o w.files w.directory p = some (l, bytes) →
    w'.files.get? l = some (.file bytes)
  /-- Everything else is as it was. -/
  get?_of_ne {l} : (∀ p ∈ inputs, ∀ bytes, writes? o w.files w.directory p ≠ some (l, bytes)) →
    w'.files.get? l = w.files.get? l

namespace Converted

variable {o : Options} {w w' : World} {inputs converted : List Path} {p : Path}

theorem nil : Converted o w [] w :=
  ⟨rfl, fun h => absurd h List.not_mem_nil, fun _ => rfl⟩

/-- **Conversions make and remove no directory.** -/
theorem sameDirectories (h : Converted o w converted w') : SameDirectories w.files w'.files := by
  intro l
  by_cases hl : ∃ p ∈ converted, ∃ bytes, writes? o w.files w.directory p = some (l, bytes)
  · obtain ⟨p, hp, bytes, hwrites⟩ := hl
    obtain ⟨_, _, hplace, _⟩ := writes?_eq_some_iff.mp hwrites
    rw [(of_filePlace? hplace).2.2, isDirectoryAt, h.get?_of_writes hp hwrites]
  · simp only [not_exists, not_and] at hl
    rw [isDirectoryAt, isDirectoryAt, h.get?_of_ne hl]

/-- **A conversion writes the same in a world that conversions have left.** -/
theorem writes?_eq (h : Converted o w converted w') (hinputs : Inputs w inputs)
    (hsub : ∀ p ∈ converted, p ∈ inputs) (hp : p ∈ inputs) :
    writes? o w'.files w'.directory p = writes? o w.files w.directory p := by
  have hplaces := filePlace?_congr h.sameDirectories w.directory
  have hprogram : programAt? w.files w.directory p = programAt? w'.files w.directory p := by
    refine programAt?_congr rfl (hplaces p) fun m hm => ?_
    have hget : w'.files.get? m = w.files.get? m := h.get?_of_ne fun q hq bytes hwrites =>
      hinputs.ne_of_writes? hp (hsub q hq) (of_filePlace? hm).1 hwrites rfl
    rw [fileAt?, fileAt?, hget]
  rw [h.directory_eq, writes?, writes?, hprogram, hplaces]

/-- **One more conversion.** What it writes where another has written is the same. -/
theorem step (h : Converted o w converted w') (hinputs : Inputs w inputs)
    (hsub : ∀ p ∈ converted, p ∈ inputs) (hp : p ∈ inputs) :
    Converted o w (converted ++ [p]) (conversionIn w' p none o).2 := by
  obtain ⟨hfiles, hdirectory⟩ := conversionIn_none w' p o
  rw [h.writes?_eq hinputs hsub hp] at hfiles
  refine ⟨hdirectory.trans h.directory_eq, fun {q l bytes} hq hwrites => ?_, fun {l} hne => ?_⟩
  · rw [hfiles]
    have hqinputs : q ∈ inputs :=
      (List.mem_append.mp hq).elim (hsub q) fun hmem => List.mem_singleton.mp hmem ▸ hp
    by_cases hl : ∃ bytes', writes? o w.files w.directory p = some (l, bytes')
    · obtain ⟨bytes', hwrites'⟩ := hl
      obtain ⟨_, _, hplace, _⟩ := writes?_eq_some_iff.mp hwrites
      rw [hwrites', hinputs.writes?_unique hqinputs hp hwrites hwrites']
      exact w'.files.get?_after_self (of_filePlace? hplace).2.1 bytes'
    · rw [not_exists] at hl
      have hqconverted : q ∈ converted := (List.mem_append.mp hq).resolve_right fun hmem =>
        hl bytes (List.mem_singleton.mp hmem ▸ hwrites)
      rw [w'.files.get?_after_of_ne hl, h.get?_of_writes hqconverted hwrites]
  · rw [hfiles, w'.files.get?_after_of_ne (hne p (List.mem_append_right _ List.mem_cons_self)),
      h.get?_of_ne fun q hq => hne q (List.mem_append_left _ hq)]

end Converted

/-- **Conversions one after the other**, without an output being named. -/
def convertAll (w : World) (inputs : List Path) (o : Options) : World :=
  inputs.foldl (fun w p => (conversionIn w p none o).2) w

section Order

variable {o : Options} {w : World} {inputs : List Path}

/-- **What any conversions leave**, as long as they are of these inputs. -/
theorem converted_convertAll (hinputs : Inputs w inputs) (o : Options) (others : List Path)
    (hsub : ∀ p ∈ others, p ∈ inputs) : Converted o w others (convertAll w others o) := by
  induction others using List.reverseRecOn with
  | nil => exact .nil
  | append_singleton converted p ih =>
    rw [List.forall_mem_append] at hsub
    have hrun : convertAll w (converted ++ [p]) o
        = (conversionIn (convertAll w converted o) p none o).2 := List.foldl_append
    rw [hrun]
    exact (ih hsub.1).step hinputs hsub.1 (hsub.2 p List.mem_cons_self)

/-- **What conversions leave is told by which inputs were converted.** -/
theorem Converted.get?_eq {w' w'' : World} {others : List Path} (h : Converted o w inputs w')
    (h' : Converted o w others w'') (hmem : ∀ p, p ∈ inputs ↔ p ∈ others) (l : Location) :
    w'.files.get? l = w''.files.get? l := by
  by_cases hl : ∃ p ∈ inputs, ∃ bytes, writes? o w.files w.directory p = some (l, bytes)
  · obtain ⟨p, hp, bytes, hwrites⟩ := hl
    rw [h.get?_of_writes hp hwrites, h'.get?_of_writes ((hmem p).mp hp) hwrites]
  · simp only [not_exists, not_and] at hl
    rw [h.get?_of_ne hl, h'.get?_of_ne fun p hp => hl p ((hmem p).mpr hp)]

end Order

/-- **Default outputs never collide.** For all accepted paths `a` and `b`, the output of
`a` is not accepted and is not the same path as `b`, and it is the same as the output of
`b` only if `a` is the same as `b`.

So if different paths name different files, conversions of accepted inputs leave the same
files in every order, however often an input is converted: the inputs as they were, and at
the place of each output what the conversion of its input alone would write there. -/
theorem convertAll_order (o : Options) :
    (∀ a b, (formatOf? a).isSome = true → (formatOf? b).isSome = true →
      Destination.resolve a none = .file (defaultOutput a)
        ∧ formatOf? (defaultOutput a) = none
        ∧ (defaultOutput a).isSame b = false
        ∧ ((defaultOutput a).isSame (defaultOutput b) = true → a.isSame b = true))
    ∧ ∀ w inputs, (∀ p ∈ inputs, (formatOf? p).isSome = true) →
      NamesApart w (inputs ++ inputs.map defaultOutput) →
        (∀ others, (∀ p, p ∈ inputs ↔ p ∈ others) →
          ∀ l, (convertAll w inputs o).files.get? l = (convertAll w others o).files.get? l)
        ∧ (∀ p ∈ inputs, ∀ l, w.files.placeOf? w.directory p = some l →
          (convertAll w inputs o).files.get? l = w.files.get? l)
        ∧ ∀ p ∈ inputs, ∀ l bytes, writes? o w.files w.directory p = some (l, bytes) →
          (convertAll w inputs o).files.get? l = some (.file bytes) := by
  refine ⟨fun a b ha hb => ⟨resolve_none a, ?_, ?_, isSame_of_isSame_defaultOutput ha hb⟩,
    fun w inputs haccepted hapart => ?_⟩
  · exact formatOf?_eq_none_of_isSame_defaultOutput ha (Path.isSame_iff.mpr rfl)
  · rw [Bool.eq_false_iff]
    intro hsame
    rw [formatOf?_eq_none_of_isSame_defaultOutput ha hsame] at hb
    cases hb
  · have hinputs : Inputs w inputs := ⟨haccepted, hapart⟩
    have hconverted := converted_convertAll hinputs o inputs fun _ hp => hp
    refine ⟨fun others hmem l => ?_, fun p hp l hplace => ?_,
      fun p hp l bytes => hconverted.get?_of_writes hp⟩
    · exact hconverted.get?_eq
        (converted_convertAll hinputs o others fun p hp => (hmem p).mpr hp) hmem l
    · exact hconverted.get?_of_ne fun q hq bytes hwrites =>
        hinputs.ne_of_writes? hp hq hplace hwrites rfl

/-- A program of a single word, as it stands in a file. -/
def wordFile (word : String) : FileNode :=
  .file (ParseTree.toJson ⟨"Start", none, [⟨"PrimaryLiteral", some word, []⟩]⟩).compact.toUTF8

/-- A world with three files, of which one has nothing but a dot before its extension, and
one a dot in its stem. -/
def dottedWorld : World :=
  .ofFiles ⟨[(["a.json"], wordFile "x"), (["a.b.json"], wordFile "y"), (["..json"], wordFile "z")]⟩ []

/-- The inputs in it. -/
def dottedInputs : List Path := [⟨"a.json"⟩, ⟨"..json"⟩, ⟨"a.b.json"⟩]

/-- Two of the inputs are converted, in either order, and the third has two dots for an
output, which is a directory. -/
theorem dottedWorld_convertAll_order :
    (∀ p ∈ dottedInputs, (formatOf? p).isSome = true)
      ∧ NamesApart dottedWorld (dottedInputs ++ dottedInputs.map defaultOutput)
      ∧ (defaultOutput ⟨"..json"⟩).isSame ⟨"a.json"⟩ = false
      ∧ (∀ l, (convertAll dottedWorld dottedInputs {}).files.get? l
        = (convertAll dottedWorld dottedInputs.reverse {}).files.get? l)
      ∧ [["a.py"], ["a.b.py"], [".."]].map (convertAll dottedWorld dottedInputs {}).files.fileAt?
        = [some "x".toUTF8, some "y".toUTF8, none] := by
  have haccepted : ∀ p ∈ dottedInputs, (formatOf? p).isSome = true := by decide +kernel
  have hapart : NamesApart dottedWorld (dottedInputs ++ dottedInputs.map defaultOutput) := by
    decide +kernel
  obtain ⟨hpaths, hfiles⟩ := convertAll_order {}
  refine ⟨haccepted, hapart, (hpaths ⟨"..json"⟩ ⟨"a.json"⟩ (by decide +kernel)
    (by decide +kernel)).2.2.1, ?_, by decide +kernel⟩
  exact (hfiles dottedWorld dottedInputs haccepted hapart).1 _ fun p => List.mem_reverse.symm

end Offside
