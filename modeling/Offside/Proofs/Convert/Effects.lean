import Offside.CommandLine.Run
import Offside.Proofs.Files.Lawful

/-!
# What a conversion leaves behind

A conversion reads its input, lays the program out and delivers the text, in
this order. Nothing before the delivery changes anything that can be seen, and
the delivery is a single step that happens or does not. So a conversion is
**all or nothing** (`convertFile_allOrNothing`). One that fails has changed no
file and printed nothing. One that succeeds has delivered the text of the
program in its input and has done nothing else. Commands are conversions with
more reading before them, and what they print they print last.

All of this holds of every world whose files behave (`LawfulFiles`). Commands
are followed step by step: `After` says of a command what holds of its answer
and of the state it leaves, and `After.bind` puts two steps together.
-/

namespace Offside

open VisibleFiles

variable {σ : Type} {α β ε : Type}

/-! ## After a command -/

/-- **What holds after a command** that was carried out in a state, of its answer
and of the state that it leaves. -/
def After (x : ExceptT ε (StateM σ) α) (s : σ) (Q : Except ε α → σ → Prop) : Prop :=
  Q (x.run.run s).1 (x.run.run s).2

namespace After

variable {x : ExceptT ε (StateM σ) α} {s : σ} {P Q : Except ε α → σ → Prop}

theorem imp (h : After x s P) (hPQ : ∀ r s', P r s' → Q r s') : After x s Q := hPQ _ _ h

theorem pure {a : α} (h : Q (.ok a) s) : After (pure a) s Q := h

theorem throw {e : ε} (h : Q (.error e) s) : After (throw e) s Q := h

/-- A command that cannot fail. -/
theorem lift {x : StateM σ α} (h : Q (.ok (x.run s).1) (x.run s).2) :
    After (ExceptT.lift x) s Q := h

/-- What holds after a command holds of the answer that it gave. -/
theorem of_answer {r : Except ε α} (h : After x s Q) (hr : (x.run.run s).1 = r) :
    Q r (x.run.run s).2 := by
  subst hr
  exact h

/-- **One command after another.** The second is carried out only if the first
has an answer, in the state that the first has left. -/
theorem bind {f : α → ExceptT ε (StateM σ) β} {R : Except ε β → σ → Prop} (h : After x s P)
    (hok : ∀ a s', P (.ok a) s' → After (f a) s' R)
    (herror : ∀ e s', P (.error e) s' → R (.error e) s') : After (x >>= f) s R := by
  unfold After at h ⊢
  rw [ExceptT.run_bind, StateT.run_bind]
  generalize x.run.run s = answer at h
  obtain ⟨r, s'⟩ := answer
  cases r with
  | ok a => exact hok a s' h
  | error e => exact herror e s' h

end After

/-! ## Quiet commands -/

/-- **A quiet command** has an answer, and changes nothing that can be seen. -/
def Quiet [VisibleFiles σ] (x : ExceptT ε (StateM σ) α) (s : σ) (P : α → Prop) : Prop :=
  After x s fun r s' => Unchanged s s' ∧ ∃ a, r = .ok a ∧ P a

namespace Quiet

variable [VisibleFiles σ] {x : ExceptT ε (StateM σ) α} {s : σ} {P : α → Prop}

theorem pure {a : α} (h : P a) : Quiet (ε := ε) (Pure.pure a) s P := ⟨.refl s, a, rfl, h⟩

/-- A quiet command leads to a state that looks the same. -/
theorem bind_after {f : α → ExceptT ε (StateM σ) β} {R : Except ε β → σ → Prop}
    (h : Quiet x s P) (hf : ∀ a s', Unchanged s s' → P a → After (f a) s' R) :
    After (x >>= f) s R := by
  refine After.bind h ?_ ?_
  · rintro a s' ⟨hs, _, ⟨⟩, ha⟩
    exact hf a s' hs ha
  · rintro e s' ⟨-, _, ⟨⟩, -⟩

/-- Quiet commands one after the other are quiet. -/
theorem bind {f : α → ExceptT ε (StateM σ) β} {R : β → Prop} (h : Quiet x s P)
    (hf : ∀ a s', P a → Quiet (f a) s' R) : Quiet (x >>= f) s R :=
  h.bind_after fun a s' hs ha => (hf a s' ha).imp fun _ _ hr => ⟨hs.trans hr.1, hr.2⟩

end Quiet

/-! ## What a file holds -/

section Holds

variable [VisibleFiles σ] {s : σ} {p : Path}

/-- **The file that a path leads to holds this text.** -/
def HoldsText (s : σ) (p : Path) (text : String) : Prop :=
  ∃ place bytes, place? s p = some place ∧ content? s place = some bytes
    ∧ String.fromUTF8? bytes = some text

/-- **The file that a path leads to holds this program.** -/
def HoldsProgram (s : σ) (p : Path) (program : Program) : Prop :=
  ∃ source, HoldsText s p source ∧ (Program.ofSource source).run.value = .ok program

/-- A file holds no more than one program. -/
theorem HoldsProgram.unique {program program' : Program} (h : HoldsProgram s p program)
    (h' : HoldsProgram s p program') : program = program' := by
  obtain ⟨source, ⟨place, bytes, hplace, hbytes, hsource⟩, hprogram⟩ := h
  obtain ⟨source', ⟨place', bytes', hplace', hbytes', hsource'⟩, hprogram'⟩ := h'
  cases Option.some.inj (hplace.symm.trans hplace')
  cases Option.some.inj (hbytes.symm.trans hbytes')
  cases Option.some.inj (hsource.symm.trans hsource')
  exact Except.ok.inj (hprogram.symm.trans hprogram')

end Holds

/-! ## What is delivered -/

section Delivered

variable [VisibleFiles σ]

/-- **A text was delivered, and nothing else has changed.** -/
def Delivered (s s' : σ) (text : String) : Destination → Prop
  | .stdout => Printed s s' (text ++ "\n")
  | .file p => ∃ place, place? s p = some place ∧ Rewritten s s' place text.toUTF8

theorem Delivered.of_unchanged {s s' s'' : σ} {text : String}
    {destination : Destination} (h : Unchanged s s') (h' : Delivered s' s'' text destination) :
    Delivered s s'' text destination := by
  cases destination with
  | stdout => exact h.printed h'
  | file p =>
    obtain ⟨place, hplace, hrewritten⟩ := h'
    exact ⟨place, (h.place_eq p).symm.trans hplace, h.rewritten hrewritten⟩

end Delivered

/-! ## Why there is nothing to deliver -/

section Because

variable [MonadFiles (StateM σ)] [VisibleFiles σ]

/-- **Why no program is read.** The reason is in the state in which the input is
read. -/
inductive NotReadBecause (s : σ) (input : Path) : Failure → Prop
  /-- The extension of the input names no format. -/
  | noReader : formatOf? input = none → NotReadBecause s input (.noReader input)
  /-- The input cannot be read, or is no text. -/
  | unreadable {e : FileError} :
      ((MonadFiles.readText input : StateM σ _).run s).1 = .error e →
        NotReadBecause s input (.unreadable input e)
  /-- The text of the input holds no parse tree, or its tree no program. -/
  | noProgram {source : String} {e : ReadError} : HoldsText s input source →
      (Program.ofSource source).run.value = .error e →
        NotReadBecause s input (.noProgram input e)

/-- **Why a conversion fails.** The reason is in the state in which the
conversion starts, or in one that looks the same. -/
inductive NotConvertedBecause (s : σ) (input : Path) (output : Option Path) (o : Options) :
    Failure → Prop
  /-- No program was read. -/
  | notRead {f : Failure} : NotReadBecause s input f → NotConvertedBecause s input output o f
  /-- The text of the program could not be written to the output. -/
  | unwritable {s' : σ} {program : Program} {p : Path} {e : FileError} :
      HoldsProgram s input program → Destination.resolve input output = .file p →
      Unchanged s s' →
      ((MonadFiles.writeText p (program.render o).value : StateM σ _).run s').1 = .error e →
        NotConvertedBecause s input output o (.unwritable p e)

end Because

/-! ## Reading and writing texts -/

/-- The text that was read, if the bytes that were read are one. -/
def textOf (read : Except FileError ByteArray) : Except FileError String :=
  read >>= fun bytes => match String.fromUTF8? bytes with
    | some text => .ok text
    | none => .error .notUtf8

theorem readText_eq_map {m : Type → Type} [Monad m] [LawfulMonad m] [MonadFiles m] (p : Path) :
    (MonadFiles.readText p : m _) = textOf <$> MonadFiles.readBytes p := by
  rw [MonadFiles.readText, map_eq_pure_bind]
  refine bind_congr fun read => ?_
  cases read with
  | error e => rfl
  | ok bytes =>
    rw [textOf]
    show (match String.fromUTF8? bytes with | some _ => _ | none => _ : m _)
      = Pure.pure (match String.fromUTF8? bytes with | some _ => _ | none => _)
    cases String.fromUTF8? bytes <;> rfl

/-- A command that may fail reads a text as one that may not. -/
theorem readText_eq_lift {m : Type → Type} [Monad m] [LawfulMonad m] [MonadFiles m] (p : Path) :
    (MonadFiles.readText p : ExceptT ε m _) = ExceptT.lift (MonadFiles.readText p) := by
  rw [readText_eq_map, readText_eq_map]
  ext
  simp [MonadFiles.readBytes, Except.map]

variable [MonadFiles (StateM σ)] [LawfulFiles σ] {s s' : σ}

/-- Reading a text changes nothing. -/
theorem unchanged_readText (p : Path) (s : σ) :
    Unchanged s ((MonadFiles.readText p : StateM σ _).run s).2 := by
  rw [readText_eq_map, StateT.run_map]
  exact LawfulFiles.unchanged_readBytes p s

/-- **The text that is read is the text that the file holds.** -/
theorem holdsText_of_readText {p : Path} {text : String}
    (h : ((MonadFiles.readText p : StateM σ _).run s).1 = .ok text) : HoldsText s p text := by
  rw [readText_eq_map, StateT.run_map] at h
  change textOf ((MonadFiles.readBytes p : StateM σ _).run s).1 = _ at h
  cases hread : ((MonadFiles.readBytes p : StateM σ _).run s).1 with
  | error e => rw [hread] at h; cases h
  | ok bytes =>
    obtain ⟨place, hplace, hbytes⟩ := LawfulFiles.content_of_readBytes hread
    refine ⟨place, bytes, hplace, hbytes, ?_⟩
    rw [hread] at h
    change (match String.fromUTF8? bytes with | some _ => _ | none => _ : Except _ _) = _ at h
    split at h
    · rename_i source hsource
      cases h
      exact hsource
    · cases h

/-! ## Quiet steps -/

theorem quiet_log (e : Event) :
    Quiet (MonadFiles.log e : ExceptT ε (StateM σ) Unit) s fun _ => True :=
  After.lift ⟨LawfulFiles.unchanged_log e s, (), rfl, trivial⟩

/-- Replaying what was logged is quiet, and answers with the value. -/
theorem quiet_replay (x : Logged α) :
    Quiet (MonadFiles.replay x : ExceptT ε (StateM σ) α) s (· = x.value) := by
  have hlog : ∀ (events : List Event) (s : σ),
      Quiet (ε := ε) (events.forM MonadFiles.log) s fun _ => True := by
    intro events
    induction events with
    | nil => exact fun s => .pure trivial
    | cons e events ih => exact fun s => (quiet_log e).bind fun _ s' _ => ih s'
  exact (hlog x.events s).bind fun _ _ _ => .pure rfl

/-- Reading a text is quiet. -/
theorem quiet_readText (p : Path) :
    Quiet (MonadFiles.readText p : ExceptT ε (StateM σ) _) s
      (· = ((MonadFiles.readText p : StateM σ _).run s).1) := by
  rw [readText_eq_lift]
  exact After.lift ⟨unchanged_readText p s, _, rfl, rfl⟩

/-- **Loading the settings is quiet**: a file that cannot be read sets nothing. -/
theorem quiet_loadLayer (p : Path) :
    Quiet (loadLayer p : ExceptT ε (StateM σ) Layer) s fun _ => True := by
  refine (quiet_readText p).bind fun read s' _ => ?_
  cases read with
  | error e => exact .pure trivial
  | ok text =>
    cases htext : Layer.ofText text with
    | some layer =>
      simp only [htext]
      exact (quiet_log _).bind fun _ _ _ => .pure trivial
    | none =>
      simp only [htext]
      exact (quiet_log _).bind fun _ _ _ => .pure trivial

theorem quiet_loadLayers (global : Option Path) (root : Path) :
    Quiet (loadLayers global root : ExceptT ε (StateM σ) Layer) s fun _ => True := by
  have hproject : ∀ (user : Layer) (s : σ), Quiet (ε := ε)
      (do let project ← loadLayer (projectSettings root); return user.merge project) s
        fun _ => True :=
    fun user s => (quiet_loadLayer _).bind fun project _ _ => .pure trivial
  cases global with
  | none => exact (Quiet.pure (P := fun _ => True) trivial).bind fun user s' _ => hproject user s'
  | some p => exact (quiet_loadLayer p).bind fun user s' _ => hproject user s'

/-! ## Reading a program -/

/-- **Reading a program changes nothing.** It comes to the program that the
input holds, or to the reason why there is none. -/
theorem after_readProgram (input : Path) :
    After (readProgram input : ExceptT Failure (StateM σ) Program) s fun r s' =>
      Unchanged s s' ∧ match r with
        | .error f => NotReadBecause s input f
        | .ok program => HoldsProgram s input program := by
  unfold readProgram
  split
  · rename_i hnone
    exact .throw ⟨.refl s, .noReader (Option.isNone_iff_eq_none.mp hnone)⟩
  refine (quiet_readText input).bind_after fun read s₁ h₁ hread => ?_
  cases read with
  | error e => exact .throw ⟨h₁, .unreadable hread.symm⟩
  | ok source =>
    have hsource := holdsText_of_readText hread.symm
    refine (quiet_replay _).bind_after fun r s₃ h₃ hr => ?_
    have h := h₁.trans h₃
    cases r with
    | error e => exact .throw ⟨h, .noProgram hsource hr.symm⟩
    | ok program =>
      refine (quiet_log _).bind_after fun _ s₄ h₄ _ => ?_
      exact .pure ⟨h.trans h₄, _, hsource, hr.symm⟩

/-! ## Delivering a text -/

/-- A text is delivered, or it is refused and nothing has changed. -/
theorem after_deliver (destination : Destination) (text : String) :
    After (deliver destination text : ExceptT Failure (StateM σ) Unit) s fun r s' =>
      match r with
      | .ok () => Delivered s s' text destination
      | .error f => Unchanged s s' ∧ ∃ p e, destination = .file p
          ∧ ((MonadFiles.writeText p text : StateM σ _).run s).1 = .error e
          ∧ f = .unwritable p e := by
  cases destination with
  | stdout => exact After.lift (LawfulFiles.printed_print (text ++ "\n") s)
  | file p =>
    refine After.bind (P := fun r s' => r = .ok ((MonadFiles.writeText p text : StateM σ _).run s).1
      ∧ s' = ((MonadFiles.writeText p text : StateM σ _).run s).2) (.lift ⟨rfl, rfl⟩) ?_ nofun
    rintro answer s' ⟨hanswer, rfl⟩
    obtain rfl := Except.ok.inj hanswer
    cases hwrite : ((MonadFiles.writeText p text : StateM σ _).run s).1 with
    | error e => exact .throw ⟨LawfulFiles.unchanged_writeBytes hwrite, p, e, rfl, hwrite, rfl⟩
    | ok _ =>
      obtain ⟨place, hplace, hrewritten⟩ := LawfulFiles.rewritten_writeBytes hwrite
      exact (quiet_log _).imp fun r s'' ⟨h, _, hr, _⟩ =>
        hr ▸ ⟨place, hplace, hrewritten.unchanged h⟩

/-! ## Converting a file -/

/-- **A conversion is all or nothing.** -/
theorem after_convertFile (input : Path) (output : Option Path) (o : Options) :
    After (convertFile input output o : ExceptT Failure (StateM σ) (Destination × String)) s
      fun r s' => match r with
        | .error f => Unchanged s s' ∧ NotConvertedBecause s input output o f
        | .ok (destination, text) => destination = Destination.resolve input output
            ∧ (∃ program, HoldsProgram s input program ∧ text = (program.render o).value)
            ∧ Delivered s s' text destination := by
  refine (after_readProgram input).bind ?_ fun f s' ⟨hs, hf⟩ => ⟨hs, .notRead hf⟩
  rintro program s₁ ⟨h₁, hprogram⟩
  refine (quiet_replay _).bind_after fun text s₂ h₂ htext => ?_
  subst htext
  have h := h₁.trans h₂
  refine (after_deliver _ _).bind ?_ ?_
  · rintro ⟨⟩ s₃ hdelivered
    exact .pure ⟨rfl, ⟨program, hprogram, rfl⟩, .of_unchanged h hdelivered⟩
  · rintro f s₃ ⟨h₃, p, e, hp, hwrite, rfl⟩
    exact ⟨h.trans h₃, .unwritable hprogram hp h hwrite⟩

/-- **Dumping a program changes nothing.** -/
theorem after_dumpFile (input : Path) :
    After (dumpFile input : ExceptT Failure (StateM σ) String) s fun r s' =>
      Unchanged s s' ∧ match r with
        | .error f => NotReadBecause s input f
        | .ok text => ∃ program, HoldsProgram s input program ∧ text = program.toJson.pretty := by
  refine (after_readProgram input).bind ?_ fun f s' h => h
  exact fun program s' ⟨h, hprogram⟩ => .pure ⟨h, program, hprogram, rfl⟩

/-! ## Carrying out a command line -/

/-- **A command that fails has changed nothing.** What it changes it changes
last. -/
theorem after_run (e : Environment) (directory : Path) (c : Command) :
    After (c.run e directory : ExceptT Failure (StateM σ) Unit) s fun r s' =>
      ∀ f, r = .error f → Unchanged s s' := by
  cases c with
  | convert input output flags =>
    refine (quiet_loadLayers _ directory).bind_after fun layer s₁ h₁ _ => ?_
    refine (after_convertFile input output _).bind ?_ fun f s' hf _ _ => h₁.trans hf.1
    exact fun _ _ _ => .pure nofun
  | dump input =>
    refine (after_dumpFile input).bind ?_ fun f s' h _ _ => h.1
    exact fun text s' _ => .lift nofun

/-- **A request that ends with status one has changed nothing.** -/
theorem unchanged_of_run_status_eq_one (e : Environment) (directory : Path) (request : Request)
    (h : ((request.run e directory : StateM σ Exit).run s).1.status = 1) :
    Unchanged s ((request.run e directory : StateM σ Exit).run s).2 := by
  cases request with
  | version => cases h
  | help => cases h
  | command verbose c =>
    have hrun := after_run (s := s) e directory c
    unfold After at hrun
    rw [Request.run, StateT.run_bind] at h ⊢
    generalize (c.run e directory : ExceptT Failure (StateM σ) Unit).run.run s = answer at h hrun
    obtain ⟨_ | f, s'⟩ := answer
    · exact hrun _ rfl
    · cases h

/-- **A command line that ends with status one has changed nothing.** -/
theorem unchanged_of_status_eq_one (e : Environment) (directory : Path) (args : List String)
    (h : ((runArguments e directory args : StateM σ Exit).run s).1.status = 1) :
    Unchanged s ((runArguments e directory args : StateM σ Exit).run s).2 := by
  unfold runArguments at h ⊢
  generalize Request.ofArguments args = request at h ⊢
  cases request with
  | none => cases h
  | some request => exact unchanged_of_run_status_eq_one e directory request h

/-! ## All or nothing -/

/-- **A conversion carried out in a state**: what it answers, and the state it
leaves. -/
def conversionIn (s : σ) (input : Path) (output : Option Path) (o : Options) :
    Except Failure (Destination × String) × σ :=
  (convertFile input output o : ExceptT Failure (StateM σ) _).run.run s

/-- **All or nothing.** In every state of every world whose files behave:

* a conversion that fails has changed no file and printed nothing, and it fails
  for a reason;
* a conversion that succeeds has delivered the text of the program that its
  input holds to the destination, and has changed nothing else;
* the text does not depend on where it goes;
* a command line that ends with status one has changed no file and printed
  nothing. -/
theorem convertFile_allOrNothing (s : σ) :
    (∀ input output o f, (conversionIn s input output o).1 = .error f →
      Unchanged s (conversionIn s input output o).2 ∧ NotConvertedBecause s input output o f)
    ∧ (∀ input output o destination text,
      (conversionIn s input output o).1 = .ok (destination, text) →
        destination = Destination.resolve input output
          ∧ (∃ program, HoldsProgram s input program ∧ text = (program.render o).value)
          ∧ Delivered s (conversionIn s input output o).2 text destination)
    ∧ (∀ input output output' o destination destination' text text',
      (conversionIn s input output o).1 = .ok (destination, text) →
      (conversionIn s input output' o).1 = .ok (destination', text') → text = text')
    ∧ ∀ e directory args, ((runArguments e directory args : StateM σ Exit).run s).1.status = 1 →
      Unchanged s ((runArguments e directory args : StateM σ Exit).run s).2 := by
  refine ⟨?_, ?_, ?_, unchanged_of_status_eq_one⟩
  · intro input output o f herror
    exact (after_convertFile input output o).of_answer herror
  · intro input output o destination text hok
    exact (after_convertFile input output o).of_answer hok
  · intro input output output' o destination destination' text text' hok hok'
    obtain ⟨-, ⟨program, hprogram, rfl⟩, -⟩ := (after_convertFile input output o).of_answer hok
    obtain ⟨-, ⟨program', hprogram', rfl⟩, -⟩ := (after_convertFile input output' o).of_answer hok'
    rw [hprogram.unique hprogram']

/-- A world with one file, whose program is a single word. -/
def oneFileWorld : World :=
  .ofFiles ⟨[(["code.json"], .file
    "\x7b\"kind\":\"Start\",\"children\":[\x7b\"kind\":\"PrimaryLiteral\",\"text\":\"x\"\x7d]\x7d".toUTF8)]⟩
    []

/-- Answers can be compared. -/
instance decidableEqExcept {ε α : Type} [DecidableEq ε] [DecidableEq α] : DecidableEq (Except ε α)
  | .ok a, .ok b => decidable_of_iff (a = b) (by simp)
  | .error e, .error f => decidable_of_iff (e = f) (by simp)
  | .ok _, .error _ => isFalse nofun
  | .error _, .ok _ => isFalse nofun

/-- The word goes to the file next to the input, or to the standard output. A
file that is not there is not converted, and all stays as it was. -/
theorem oneFileWorld_allOrNothing :
    Delivered oneFileWorld (conversionIn oneFileWorld ⟨"code.json"⟩ none {}).2 "x"
        (.file ⟨"code.py"⟩)
      ∧ Delivered oneFileWorld (conversionIn oneFileWorld ⟨"code.json"⟩ (some ⟨"-"⟩) {}).2 "x"
        .stdout
      ∧ Unchanged oneFileWorld (conversionIn oneFileWorld ⟨"tree.json"⟩ none {}).2
      ∧ Unchanged oneFileWorld ((runArguments ⟨none, none⟩ ⟨"/"⟩ ["convert", "tree.json"] :
        StateM World Exit).run oneFileWorld).2 := by
  obtain ⟨hfail, hok, -, hstatus⟩ := convertFile_allOrNothing oneFileWorld
  have hfile : (conversionIn oneFileWorld ⟨"code.json"⟩ none {}).1
      = .ok (.file ⟨"code.py"⟩, "x") := by decide +kernel
  have hstdout : (conversionIn oneFileWorld ⟨"code.json"⟩ (some ⟨"-"⟩) {}).1
      = .ok (.stdout, "x") := by decide +kernel
  have herror : (conversionIn oneFileWorld ⟨"tree.json"⟩ none {}).1
      = .error (.unreadable ⟨"tree.json"⟩ .notFound) := by decide +kernel
  have hexit : ((runArguments ⟨none, none⟩ ⟨"/"⟩ ["convert", "tree.json"] :
      StateM World Exit).run oneFileWorld).1.status = 1 := by decide +kernel
  exact ⟨(hok _ _ _ _ _ hfile).2.2, (hok _ _ _ _ _ hstdout).2.2, (hfail _ _ _ _ herror).1,
    hstatus _ _ _ hexit⟩

end Offside
