import Offside.Files.World

/-!
# What commands may rely on

What a command leaves untouched is said of worlds, and it holds of more worlds
than the one in which a tree is all that there is of the files: of every kind
of world whose files behave. A file system may have links and permissions, and
may refuse what it likes. What is asked of it is what is promised of a machine
(`LawfulFiles`). Reading and logging change no file, writing a file replaces
all of it and touches no other file, and a write that fails has no effect at
all.

`World` is such a world. There a path leads to a place on the tree, and the
file at that place is the one that is read and written.
-/

namespace Offside

/-! ## Looking at a world -/

/-- **What is seen of a world**: the files in it and the text that was printed.
A file is at a **place**, and more than one path may lead to a place. -/
class VisibleFiles (σ : Type) where
  /-- The places where files can be. -/
  Place : Type
  /-- The place that a path leads to. -/
  place? : σ → Path → Option Place
  /-- The bytes of the file at a place, if there is one. -/
  content? : σ → Place → Option ByteArray
  /-- What was printed. -/
  printed : σ → String

open VisibleFiles

variable {σ : Type}

/-- **Nothing to be seen has changed**: no file was made, removed or rewritten,
and nothing was printed. -/
structure Unchanged [VisibleFiles σ] (s s' : σ) : Prop where
  place_eq : ∀ p, place? s' p = place? s p
  content_eq : ∀ place, content? s' place = content? s place
  printed_eq : printed s' = printed s

/-- **One file has these bytes now**, and nothing else has changed. -/
structure Rewritten [VisibleFiles σ] (s s' : σ) (place : Place σ) (bytes : ByteArray) : Prop where
  content_self : content? s' place = some bytes
  content_of_ne : ∀ other, other ≠ place → content? s' other = content? s other
  printed_eq : printed s' = printed s

/-- **This text was printed**, and nothing else has changed. -/
structure Printed [VisibleFiles σ] (s s' : σ) (text : String) : Prop where
  content_eq : ∀ place, content? s' place = content? s place
  printed_eq : printed s' = printed s ++ text

namespace Unchanged

variable [VisibleFiles σ] {s s' s'' : σ}

theorem refl (s : σ) : Unchanged s s := ⟨fun _ => rfl, fun _ => rfl, rfl⟩

theorem trans (h : Unchanged s s') (h' : Unchanged s' s'') : Unchanged s s'' :=
  ⟨fun p => (h'.place_eq p).trans (h.place_eq p),
    fun place => (h'.content_eq place).trans (h.content_eq place),
    h'.printed_eq.trans h.printed_eq⟩

theorem rewritten {place : Place σ} {bytes : ByteArray} (h : Unchanged s s')
    (h' : Rewritten s' s'' place bytes) : Rewritten s s'' place bytes :=
  ⟨h'.content_self, fun other hne => (h'.content_of_ne other hne).trans (h.content_eq other),
    h'.printed_eq.trans h.printed_eq⟩

theorem printed {text : String} (h : Unchanged s s') (h' : Printed s' s'' text) :
    Printed s s'' text :=
  ⟨fun place => (h'.content_eq place).trans (h.content_eq place),
    by rw [h'.printed_eq, h.printed_eq]⟩

end Unchanged

/-- A file that was rewritten stays so as long as nothing changes. -/
theorem Rewritten.unchanged [VisibleFiles σ] {s s' s'' : σ} {place : Place σ} {bytes : ByteArray}
    (h : Rewritten s s' place bytes) (h' : Unchanged s' s'') : Rewritten s s'' place bytes :=
  ⟨(h'.content_eq place).trans h.content_self,
    fun other hne => (h'.content_eq other).trans (h.content_of_ne other hne),
    h'.printed_eq.trans h.printed_eq⟩

/-! ## Files that behave -/

/-- **Worlds whose files behave.** -/
class LawfulFiles (σ : Type) [MonadFiles (StateM σ)] extends VisibleFiles σ where
  /-- Reading changes nothing. -/
  unchanged_readBytes (p : Path) (s : σ) :
    Unchanged s ((MonadFiles.readBytes p : StateM σ _).run s).2
  /-- What is read is the file that the path leads to. -/
  content_of_readBytes {p : Path} {s : σ} {bytes : ByteArray} :
    ((MonadFiles.readBytes p : StateM σ _).run s).1 = .ok bytes →
      ∃ place, place? s p = some place ∧ content? s place = some bytes
  /-- A write that fails has no effect. -/
  unchanged_writeBytes {p : Path} {bytes : ByteArray} {s : σ} {e : FileError} :
    ((MonadFiles.writeBytes p bytes : StateM σ _).run s).1 = .error e →
      Unchanged s ((MonadFiles.writeBytes p bytes : StateM σ _).run s).2
  /-- A write replaces the file that the path leads to, or makes it. -/
  rewritten_writeBytes {p : Path} {bytes : ByteArray} {s : σ} :
    ((MonadFiles.writeBytes p bytes : StateM σ _).run s).1 = .ok () →
      ∃ place, place? s p = some place
        ∧ Rewritten s ((MonadFiles.writeBytes p bytes : StateM σ _).run s).2 place bytes
  /-- What is printed stands behind what was printed before. -/
  printed_print (text : String) (s : σ) :
    Printed s ((MonadFiles.print text : StateM σ _).run s).2 text
  /-- Logging changes nothing. -/
  unchanged_log (e : Event) (s : σ) : Unchanged s ((MonadFiles.log e : StateM σ _).run s).2

/-! ## Trees of files behave -/

namespace FileTree

variable {t : FileTree}

/-- **Where a path leads is on the tree**: what was found is there, unless it is
a directory, and a place where nothing was found is not the root. -/
def Target.IsOn (t : FileTree) : Target → Prop
  | found l node => node = .directory ∨ t.get? l = some node
  | missing l => l ≠ []
  | unnameable => True

theorem isOn_of_stepInto {l : Location} {segment : String} {target : Target}
    (h : t.stepInto l segment = .ok target) : target.IsOn t := by
  unfold stepInto at h
  cases hl : t.get? l with
  | none => rw [hl] at h; cases h
  | some node =>
    rw [hl] at h
    cases node with
    | file bytes => cases h
    | directory =>
      simp only at h
      split at h
      · cases h; exact .inl rfl
      split at h
      · cases h; exact .inl rfl
      split at h
      · cases h; exact trivial
      split at h
      · rename_i node hnode
        cases h
        exact .inr hnode
      · cases h
        exact List.append_ne_nil_of_right_ne_nil l (List.cons_ne_nil segment [])

theorem isOn_of_follow {l : Location} {segments : List String} {target : Target}
    (h : t.follow l segments = .ok target) : target.IsOn t := by
  induction segments generalizing l with
  | nil =>
    rw [follow] at h
    split at h
    · rename_i node hnode
      cases h
      exact .inr hnode
    · cases h
  | cons segment segments ih =>
    cases segments with
    | nil => exact isOn_of_stepInto h
    | cons next segments =>
      rw [follow] at h
      · split at h
        · exact ih h
        all_goals cases h
      · exact nofun

theorem isOn_of_resolve {start : Location} {p : Path} {target : Target} {slash : Bool}
    (h : t.resolve start p = .ok (target, slash)) : target.IsOn t := by
  unfold resolve at h
  split at h
  · cases h
  split at h
  · cases h
  split at h
  · cases h
  cases hfollow : t.follow (if p.isAbsolute then [] else start) (segments p).1 with
  | error e =>
    simp only [hfollow] at h
    cases h
  | ok found =>
    simp only [hfollow] at h
    cases h
    exact isOn_of_follow hfollow

/-- **The file at a place of the tree.** -/
def fileAt? (t : FileTree) (l : Location) : Option ByteArray :=
  match t.get? l with
  | some (.file bytes) => some bytes
  | _ => none

/-- **The place on the tree that a path leads to**, whether or not something is
there. -/
def placeOf? (t : FileTree) (start : Location) (p : Path) : Option Location :=
  match t.resolve start p with
  | .ok (.found l _, _) | .ok (.missing l, _) => some l
  | _ => none

/-- What is read is the file at the place that the path leads to. -/
theorem fileAt?_of_read {start : Location} {p : Path} {bytes : ByteArray}
    (h : t.read start p = .ok bytes) :
    ∃ l, t.placeOf? start p = some l ∧ t.fileAt? l = some bytes := by
  unfold read at h
  cases hresolve : t.resolve start p with
  | error e => rw [hresolve] at h; cases h
  | ok found =>
    rw [hresolve] at h
    obtain ⟨target, slash⟩ := found
    have hon := isOn_of_resolve hresolve
    match target, slash, h with
    | .found l (.file bytes'), false, h =>
      cases h
      refine ⟨l, by rw [placeOf?, hresolve], ?_⟩
      rw [fileAt?, hon.resolve_left nofun]

/-- **A write replaces the file at the place that the path leads to**, or makes
it there. -/
theorem fileAt?_of_write {t' : FileTree} {start : Location} {p : Path} {bytes : ByteArray}
    (h : t.write start p bytes = .ok t') :
    ∃ l, t.placeOf? start p = some l ∧ t'.fileAt? l = some bytes
      ∧ ∀ m, m ≠ l → t'.fileAt? m = t.fileAt? m := by
  have hset : ∀ l, l ≠ [] → (t.set l (.file bytes)).fileAt? l = some bytes
      ∧ ∀ m, m ≠ l → (t.set l (.file bytes)).fileAt? m = t.fileAt? m := by
    intro l hl
    refine ⟨by rw [fileAt?, t.get?_set hl], fun m hm => ?_⟩
    rw [fileAt?, t.get?_set_of_ne hm, fileAt?]
  unfold write at h
  cases hresolve : t.resolve start p with
  | error e => rw [hresolve] at h; cases h
  | ok found =>
    rw [hresolve] at h
    obtain ⟨target, slash⟩ := found
    have hon := isOn_of_resolve hresolve
    match target, slash, h with
    | .found l (.file old), false, h =>
      cases h
      have hl : l ≠ [] := by
        rintro rfl
        exact nomatch hon.resolve_left nofun
      exact ⟨l, by rw [placeOf?, hresolve], hset l hl⟩
    | .missing l, false, h =>
      cases h
      exact ⟨l, by rw [placeOf?, hresolve], hset l hon⟩

end FileTree

namespace World

/-- The files of a world are those of its tree. -/
instance : VisibleFiles World where
  Place := Location
  place? w := w.files.placeOf? w.directory
  content? w := w.files.fileAt?
  printed := World.printed

/-- What writing a file makes of a world. -/
theorem run_writeBytes (p : Path) (bytes : ByteArray) (w : World) :
    (MonadFiles.writeBytes p bytes : StateM World _).run w
      = match w.files.write w.directory p bytes with
        | .ok files => (.ok (), { w with files })
        | .error e => (.error e, w) := by
  simp only [MonadFiles.writeBytes, StateT.run_bind, StateT.run_get, pure_bind]
  cases w.files.write w.directory p bytes <;> rfl

/-- **The files of a tree behave.** -/
instance : LawfulFiles World where
  unchanged_readBytes _ w := .refl w
  content_of_readBytes h := FileTree.fileAt?_of_read h
  unchanged_writeBytes {p bytes w e} h := by
    rw [run_writeBytes] at h ⊢
    cases hwrite : w.files.write w.directory p bytes with
    | ok files => rw [hwrite] at h; cases h
    | error e => exact .refl w
  rewritten_writeBytes {p bytes w} h := by
    rw [run_writeBytes] at h ⊢
    cases hwrite : w.files.write w.directory p bytes with
    | error e => rw [hwrite] at h; cases h
    | ok files =>
      obtain ⟨l, hplace, hself, hother⟩ := FileTree.fileAt?_of_write hwrite
      exact ⟨l, hplace, hself, hother, rfl⟩
  printed_print text w := ⟨fun _ => rfl, rfl⟩
  unchanged_log _ _ := ⟨fun _ => rfl, fun _ => rfl, rfl⟩

end World

end Offside
