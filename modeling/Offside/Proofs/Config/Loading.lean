import Mathlib.Data.List.Basic
import Offside.Proofs.Config.Layering
import Offside.Proofs.Convert.Effects

/-!
# What is heard of a file of settings

Loading looks at the file of the user and then at that of the project. What it comes to
and what it logs is told by the bytes of the two files, and nothing but the log changes
(`run_loadLayers`).

A file that is there should not be passed over in silence: either its settings were
taken, or a warning says that they were not. That is what is due of a file (`due?`). What
is heard of it (`heard?`) is less. A file whose bytes are no text sets nothing, and
nothing is said of it. So what is due is heard if and only if every file that is there
holds a text (`loadLayers_reports`).
-/

namespace Offside

/-! ## What is in a file -/

/-- **The bytes of a file**, if it is there. -/
def bytesAt? (w : World) (p : Path) : Option ByteArray :=
  (w.files.read w.directory p).toOption

/-- Whether bytes are those of a text. -/
def isText (bytes : ByteArray) : Bool := (String.fromUTF8? bytes).isSome

/-- **The layer that bytes set**, if they are a valid file of settings. -/
def Layer.ofBytes (bytes : ByteArray) : Option Layer :=
  (String.fromUTF8? bytes).bind Layer.ofText

/-- **The layer in a file.** A file that is missing, or is no valid file of settings, sets
nothing. -/
def layerAt (w : World) (p : Path) : Layer := ((bytesAt? w p).bind Layer.ofBytes).getD .unset

/-! ## What is said of a file -/

/-- **A word about a file that is there**: its settings were taken, or the file was passed
over. -/
def report (p : Path) (bytes : ByteArray) : Event :=
  if (Layer.ofBytes bytes).isSome then .loadedConfig p.text else .ignoredConfig p.text

/-- **What is due to be said of a file**: a word if it is there, and nothing if it is
not. -/
def due? (w : World) (p : Path) : Option Event := (bytesAt? w p).map (report p)

/-- **What is said of a file**: a word if it is there and its bytes are a text. -/
def heard? (w : World) (p : Path) : Option Event := ((bytesAt? w p).filter isText).map (report p)

/-! ## Loading -/

/-- The files of settings, in the order in which they are looked at. -/
def settingsFiles (global : Option Path) (root : Path) : List Path :=
  global.toList ++ [projectSettings root]

/-- The world with some more events in its log. -/
def World.record (w : World) (events : List Event) : World :=
  { w with events := w.events ++ events }

@[simp] theorem World.record_nil (w : World) : w.record [] = w := by
  rw [record, List.append_nil]

theorem World.record_record (w : World) (events others : List Event) :
    (w.record events).record others = w.record (events ++ others) := by
  rw [record, record, record, List.append_assoc]

/-- **One step after another.** -/
theorem run_bind_of_run {σ α β : Type} {x : StateM σ α} {s s' : σ} {a : α} (h : x.run s = (a, s'))
    (f : α → StateM σ β) : (x >>= f).run s = (f a).run s' := by
  rw [StateT.run_bind, h]
  rfl

theorem run_readText (p : Path) (w : World) :
    (MonadFiles.readText p : StateM World _).run w = (textOf (w.files.read w.directory p), w) := by
  rw [readText_eq_map]
  rfl

theorem textOf_ok (bytes : ByteArray) :
    textOf (.ok bytes) = (String.fromUTF8? bytes).elim (.error .notUtf8) .ok := by
  simp only [textOf, bind, Except.bind]
  cases String.fromUTF8? bytes <;> rfl

/-- **Loading a file** comes to the layer that is in it. -/
theorem run_loadLayer (p : Path) (w : World) :
    (loadLayer p : StateM World Layer).run w = (layerAt w p, w.record (heard? w p).toList) := by
  rw [loadLayer, run_bind_of_run (run_readText p w), layerAt, heard?, bytesAt?]
  cases w.files.read w.directory p with
  | error e => exact Prod.ext rfl w.record_nil.symm
  | ok bytes =>
    rw [textOf_ok, Except.toOption, Option.bind_some, Option.filter_some, isText, Layer.ofBytes]
    cases htext : String.fromUTF8? bytes with
    | none => exact Prod.ext rfl w.record_nil.symm
    | some text =>
      rw [Option.isSome_some, if_pos rfl, Option.map_some, report, Layer.ofBytes, htext,
        Option.bind_some, Option.elim_some]
      -- there is a text, so a word is said of it, whatever it sets
      cases hlayer : Layer.ofText text with
      | none =>
        simp only [hlayer]
        rfl
      | some layer =>
        simp only [hlayer]
        rfl

/-- **Loading the settings** comes to the layers in the two files, and nothing but the log
changes. -/
theorem run_loadLayers (global : Option Path) (root : Path) (w : World) :
    (loadLayers global root : StateM World Layer).run w
      = (.mergeAll ((settingsFiles global root).map (layerAt w)),
        w.record ((settingsFiles global root).filterMap (heard? w))) := by
  have hproject : ∀ (user : Layer) (w : World),
      (do let project ← loadLayer (projectSettings root); return user.merge project :
        StateM World Layer).run w
        = (user.merge (layerAt w (projectSettings root)),
          w.record (heard? w (projectSettings root)).toList) :=
    fun user w => run_bind_of_run (run_loadLayer _ w) _
  rw [settingsFiles, List.filterMap_eq_flatMap_toList, List.map_append, List.flatMap_append,
    Layer.mergeAll_append, ← World.record_record, List.map_singleton, List.flatMap_singleton,
    Layer.mergeAll_singleton]
  cases global with
  | none =>
    rw [Option.toList_none, List.flatMap_nil, World.record_nil]
    exact (run_bind_of_run rfl _).trans (hproject .unset w)
  | some p =>
    rw [Option.toList_some, List.map_singleton, List.flatMap_singleton, Layer.mergeAll_singleton]
    -- a file says the same whatever is in the log
    exact (run_bind_of_run (run_loadLayer p w) _).trans (hproject (layerAt w p) _)

/-! ## What is due and what is heard -/

section Agreement

variable {α β : Type} {f g : α → Option β}

/-- If one of two partial maps says what the other says or nothing, it lists no more. -/
theorem length_filterMap_le_length_filterMap (h : ∀ a, f a = none ∨ f a = g a) (l : List α) :
    (l.filterMap f).length ≤ (l.filterMap g).length := by
  rw [List.length_filterMap_eq_countP, List.length_filterMap_eq_countP]
  refine List.countP_mono_left fun a _ hsome => ?_
  rcases h a with hnone | hsame
  · rw [hnone] at hsome
    cases hsome
  · rwa [← hsame]

/-- **Such maps list the same only where they agree.** -/
theorem filterMap_eq_filterMap_iff (h : ∀ a, f a = none ∨ f a = g a) {l : List α} :
    l.filterMap f = l.filterMap g ↔ ∀ a ∈ l, f a = g a := by
  refine ⟨fun heq => ?_, List.filterMap_congr⟩
  induction l with
  | nil => exact fun a ha => absurd ha List.not_mem_nil
  | cons a l ih =>
    have hsame : f a = g a := by
      refine (h a).elim (fun hnone => ?_) id
      cases hg : g a with
      | none => exact hnone
      | some b =>
        -- the second list would be longer than the first
        have hle := length_filterMap_le_length_filterMap h l
        rw [List.filterMap_cons_none hnone, List.filterMap_cons_some hg] at heq
        rw [heq, List.length_cons] at hle
        exact absurd hle (Nat.not_succ_le_self _)
    refine List.forall_mem_cons.mpr ⟨hsame, ih ?_⟩
    rw [List.filterMap_cons, List.filterMap_cons, hsame] at heq
    cases hg : g a with
    | none => simpa only [hg] using heq
    | some b => simpa only [hg, List.cons.injEq, true_and] using heq

end Agreement

theorem heard?_eq_filter (w : World) (p : Path) {bytes : ByteArray}
    (h : bytesAt? w p = some bytes) :
    heard? w p = if isText bytes then due? w p else none := by
  rw [heard?, due?, h, Option.filter_some]
  cases isText bytes <;> rfl

/-- **What is heard of a file is what is due of it, or nothing.** -/
theorem heard?_eq_none_or (w : World) (p : Path) : heard? w p = none ∨ heard? w p = due? w p := by
  cases h : bytesAt? w p with
  | none => exact .inl (by rw [heard?, h]; rfl)
  | some bytes =>
    rw [heard?_eq_filter w p h]
    cases isText bytes with
    | false => exact .inl rfl
    | true => exact .inr rfl

/-- **What is due of a file is heard** if and only if the file, if it is there, holds a
text. -/
theorem heard?_eq_due?_iff {w : World} {p : Path} :
    heard? w p = due? w p ↔ ∀ bytes, bytesAt? w p = some bytes → isText bytes = true := by
  cases h : bytesAt? w p with
  | none =>
    refine iff_of_true ?_ nofun
    rw [heard?, due?, h]
    rfl
  | some bytes =>
    rw [heard?_eq_filter w p h, due?, h, Option.map_some]
    cases htext : isText bytes with
    | false => simp [htext]
    | true => simp [htext]

/-- **A word names its file, and says whether the settings in it were taken.** -/
theorem level_report (p : Path) (bytes : ByteArray) :
    ((report p bytes).level, (report p bytes).message)
      = if (Layer.ofBytes bytes).isSome then (.debug, "loaded config")
        else (.warn, "ignoring invalid config") := by
  rw [report]
  split <;> rfl

/-- **What is heard of the files of settings.** Loading comes to the layers in the file of
the user and in that of the project, in this order, and changes nothing but the log. There
it leaves a word about each file that is there and holds a text.

So what is due of the files is heard, a word about each that is there, if and only if all
that are there hold a text. A file that holds a text and is passed over is warned of. -/
theorem loadLayers_reports (w : World) (global : Option Path) (root : Path) :
    (loadLayers global root : StateM World Layer).run w
        = (.mergeAll ((settingsFiles global root).map (layerAt w)),
          w.record ((settingsFiles global root).filterMap (heard? w)))
      ∧ ((settingsFiles global root).filterMap (heard? w)
            = (settingsFiles global root).filterMap (due? w)
          ↔ ∀ p ∈ settingsFiles global root, ∀ bytes, bytesAt? w p = some bytes →
            isText bytes = true)
      ∧ (∀ p ∈ settingsFiles global root, ∀ bytes, bytesAt? w p = some bytes →
          isText bytes = true → Layer.ofBytes bytes = none →
            .ignoredConfig p.text
              ∈ ((loadLayers global root : StateM World Layer).run w).2.events)
      ∧ ∀ p bytes, ((report p bytes).level, (report p bytes).message)
          = if (Layer.ofBytes bytes).isSome then (.debug, "loaded config")
            else (.warn, "ignoring invalid config") := by
  have hrun := run_loadLayers global root w
  refine ⟨hrun, ?_, ?_, level_report⟩
  · rw [filterMap_eq_filterMap_iff (heard?_eq_none_or w)]
    exact forall₂_congr fun p _ => heard?_eq_due?_iff
  · intro p hp bytes hbytes htext hnone
    rw [hrun]
    refine List.mem_append_right _ (List.mem_filterMap.mpr ⟨p, hp, ?_⟩)
    rw [heard?_eq_filter w p hbytes, if_pos htext, due?, hbytes, Option.map_some, report, hnone]
    rfl

/-- Settings that were saved in an encoding of single bytes, in which the second letter of
their comment is the byte `E9`. -/
def singleByteSettings : ByteArray :=
  "# r".toUTF8 ++ ⟨#[0xE9]⟩ ++ "glages\n[output]\nindent_width = 2\n".toUTF8

/-- Settings with a line ending of an unknown name. -/
def unknownSettings : ByteArray := "[output]\nindent_width = 3\nline_ending = \"cr\"\n".toUTF8

/-- A world in which neither the file of the user nor that of the project can be taken. -/
def strayWorld : World :=
  .ofFiles ⟨[(["global.toml"], .file singleByteSettings), (["proj"], .directory),
    (["proj", ".codeconv"], .directory),
    (["proj", ".codeconv", "config.toml"], .file unknownSettings)]⟩ []

/-- Both files are there and both are passed over, the second with a warning and the first
without a word. -/
theorem strayWorld_loadLayers_reports :
    bytesAt? strayWorld ⟨"global.toml"⟩ = some singleByteSettings
      ∧ isText singleByteSettings = false
      ∧ (settingsFiles (some ⟨"global.toml"⟩) ⟨"proj"⟩).filterMap (heard? strayWorld)
        ≠ (settingsFiles (some ⟨"global.toml"⟩) ⟨"proj"⟩).filterMap (due? strayWorld)
      ∧ .ignoredConfig "proj/.codeconv/config.toml"
        ∈ ((loadLayers (some ⟨"global.toml"⟩) ⟨"proj"⟩ : StateM World Layer).run
          strayWorld).2.events := by
  obtain ⟨-, hiff, hwarned, -⟩ := loadLayers_reports strayWorld (some ⟨"global.toml"⟩) ⟨"proj"⟩
  have hbytes : bytesAt? strayWorld ⟨"global.toml"⟩ = some singleByteSettings := by
    decide +kernel
  have htext : isText singleByteSettings = false := by decide +kernel
  refine ⟨hbytes, htext, fun heq => ?_, ?_⟩
  · have htrue := hiff.mp heq _ List.mem_cons_self _ hbytes
    rw [htext] at htrue
    cases htrue
  · exact hwarned (projectSettings ⟨"proj"⟩) (List.mem_append_right _ List.mem_cons_self)
      unknownSettings (by decide +kernel) (by decide +kernel) (by decide +kernel)

/-- **What is due of the files of settings is not always heard**: a file that is there and
holds no text is passed over in silence. -/
theorem not_forall_due_heard :
    ¬ ∀ (w : World) (global : Option Path) (root : Path),
      ((loadLayers global root : StateM World Layer).run w).2.events
        = w.events ++ (settingsFiles global root).filterMap (due? w) := by
  intro h
  have hstray := h strayWorld (some ⟨"global.toml"⟩) ⟨"proj"⟩
  revert hstray
  decide +kernel

end Offside
