import Mathlib.Data.Option.Basic
import Offside.Proofs.Files.Lawful
import Offside.Proofs.Path.FileName

/-!
# The place of a path

Where a path leads is told by the directories on the tree, and by nothing else: a file
that is made or rewritten is not on the way to anything. So a path leads to the same
place as long as the directories stay (`filePlace?_congr`), and so does a path that is
spelled in another way but has the same components (`placeOf?_eq_of_isSame`).

Reading and writing are told by the place as well. A file can be read or written at a
path if it leads to a place that is no directory, with no slash behind its last name
(`FileTree.filePlace?`). It is read if a file is there, and written in any case.
-/

namespace Offside

namespace FileTree

variable {t t' : FileTree} {start l m : Location} {p q : Path}

/-! ## Where names lead -/

/-- Whether there is a directory at a place. -/
def isDirectoryAt (t : FileTree) (l : Location) : Bool :=
  match t.get? l with
  | some .directory => true
  | _ => false

/-- **The place that is reached**, and whether it is a directory. -/
def spotOf? : Except FileError Target → Option (Location × Bool)
  | .ok (.found l .directory) => some (l, true)
  | .ok (.found l (.file _)) | .ok (.missing l) => some (l, false)
  | _ => none

/-- **Where one name more leads** is told by the directories. -/
theorem spotOf?_stepInto (t : FileTree) (l : Location) (segment : String) :
    spotOf? (t.stepInto l segment)
      = if t.isDirectoryAt l = false then none
        else if segment = "." then some (l, true)
        else if segment = ".." then some (l.dropLast, true)
        else if maxNameBytes < segment.utf8ByteSize then none
        else some (l ++ [segment], t.isDirectoryAt (l ++ [segment])) := by
  unfold stepInto isDirectoryAt
  cases t.get? l with
  | none => rfl
  | some node =>
    cases node with
    | file bytes => rfl
    | directory =>
      simp only [Bool.true_eq_false, if_false]
      split
      · rfl
      split
      · rfl
      split
      · rfl
      · cases t.get? (l ++ [segment]) with
        | none => rfl
        | some node => cases node <;> rfl

/-- A name leads nowhere from a place that is no directory. -/
theorem exists_stepInto_eq_error (h : t.isDirectoryAt l = false) (segment : String) :
    ∃ e, t.stepInto l segment = .error e := by
  unfold isDirectoryAt at h
  unfold stepInto
  cases hl : t.get? l with
  | none => exact ⟨_, rfl⟩
  | some node =>
    rw [hl] at h
    cases node with
    | file bytes => exact ⟨_, rfl⟩
    | directory => cases h

theorem spotOf?_follow_of_not_directory (h : t.isDirectoryAt l = false) (segment : String)
    (segments : List String) : spotOf? (t.follow l (segment :: segments)) = none := by
  obtain ⟨e, he⟩ := exists_stepInto_eq_error h segment
  cases segments with
  | nil =>
    rw [follow, he]
    rfl
  | cons next segments =>
    rw [follow, he]
    · rfl
    · exact List.cons_ne_nil _ _

/-- **Names are followed one by one**, from directory to directory. -/
theorem spotOf?_follow_cons (t : FileTree) (l : Location) (segment next : String)
    (segments : List String) :
    spotOf? (t.follow l (segment :: next :: segments))
      = (spotOf? (t.stepInto l segment)).bind fun spot =>
        if spot.2 then spotOf? (t.follow spot.1 (next :: segments)) else none := by
  rw [follow]
  · cases hstep : t.stepInto l segment with
    | error e => rfl
    | ok target =>
      cases target with
      | missing l' => rfl
      | unnameable => rfl
      | found l' node =>
        cases node with
        | directory => rfl
        | file bytes =>
          -- a file is no directory, so nothing is reached from there
          have hget : t.get? l' = some (.file bytes) :=
            (isOn_of_stepInto hstep).resolve_left FileNode.noConfusion
          exact spotOf?_follow_of_not_directory (by rw [isDirectoryAt, hget]) next segments
  · exact List.cons_ne_nil _ _

/-- **The same directories are on both trees.** -/
def SameDirectories (t t' : FileTree) : Prop := ∀ l, t.isDirectoryAt l = t'.isDirectoryAt l

theorem spotOf?_follow_congr (h : SameDirectories t t') (segment : String)
    (segments : List String) (l : Location) :
    spotOf? (t.follow l (segment :: segments)) = spotOf? (t'.follow l (segment :: segments)) := by
  have hstep : ∀ l segment, spotOf? (t.stepInto l segment) = spotOf? (t'.stepInto l segment) :=
    fun l segment => by rw [spotOf?_stepInto, spotOf?_stepInto, h, h]
  induction segments generalizing segment l with
  | nil => exact hstep l segment
  | cons next segments ih =>
    rw [spotOf?_follow_cons, spotOf?_follow_cons, hstep]
    exact congrArg _ (funext fun spot => by rw [ih])

/-! ## Lone dots -/

/-- **Where names lead**, if anywhere. -/
def reach (t : FileTree) (l : Location) (names : List String) : Option Location :=
  (spotOf? (t.follow l names)).map Prod.fst

theorem reach_nil (h : t.reach l [] = some m) : l = m := by
  unfold reach follow at h
  cases hl : t.get? l with
  | none =>
    rw [hl] at h
    cases h
  | some node =>
    rw [hl] at h
    cases node <;> exact Option.some.inj h

theorem reach_cons_iff {segment next : String} {names : List String} :
    t.reach l (segment :: next :: names) = some m
      ↔ ∃ l', spotOf? (t.stepInto l segment) = some (l', true)
        ∧ t.reach l' (next :: names) = some m := by
  unfold reach
  rw [spotOf?_follow_cons]
  constructor
  · intro h
    obtain ⟨spot, hspot, rfl⟩ := Option.map_eq_some_iff.mp h
    obtain ⟨⟨l', isDirectory⟩, hstep, hrest⟩ := Option.bind_eq_some_iff.mp hspot
    cases isDirectory with
    | false => cases hrest
    | true => exact ⟨l', hstep, congrArg (Option.map Prod.fst) hrest⟩
  · rintro ⟨l', hstep, hrest⟩
    rw [hstep]
    exact hrest

/-- A lone dot leads to where one is. -/
theorem spotOf?_stepInto_dot {spot : Location × Bool}
    (h : spotOf? (t.stepInto l ".") = some spot) : spot = (l, true) ∧ t.isDirectoryAt l = true := by
  rw [spotOf?_stepInto] at h
  cases hl : t.isDirectoryAt l with
  | false =>
    rw [hl] at h
    cases h
  | true =>
    rw [hl] at h
    cases h
    exact ⟨rfl, rfl⟩

theorem reach_nil_of_directory (h : t.isDirectoryAt l = true) : t.reach l [] = some l := by
  unfold isDirectoryAt at h
  unfold reach follow
  cases hl : t.get? l with
  | none =>
    rw [hl] at h
    cases h
  | some node => cases node <;> rfl

/-- **Lone dots do not matter** to where names lead. -/
theorem reach_filter {names : List String} (h : t.reach l names = some m) :
    t.reach l (names.filter (· ≠ ".")) = some m := by
  induction names generalizing l with
  | nil => exact h
  | cons segment names ih =>
    by_cases hdot : segment = "."
    · subst hdot
      rw [List.filter_cons_of_neg (by decide)]
      cases names with
      | nil =>
        obtain ⟨spot, hspot, rfl⟩ := Option.map_eq_some_iff.mp h
        obtain ⟨rfl, hl⟩ := spotOf?_stepInto_dot hspot
        exact reach_nil_of_directory hl
      | cons next names =>
        obtain ⟨l', hstep, hrest⟩ := reach_cons_iff.mp h
        obtain ⟨heq, -⟩ := spotOf?_stepInto_dot hstep
        obtain rfl : l' = l := congrArg Prod.fst heq
        exact ih hrest
    · rw [List.filter_cons_of_pos (by simpa using hdot)]
      cases names with
      | nil => exact h
      | cons next names =>
        obtain ⟨l', hstep, hrest⟩ := reach_cons_iff.mp h
        have hih := ih hrest
        cases hfilter : (next :: names).filter (· ≠ ".") with
        | nil =>
          rw [hfilter] at hih
          obtain rfl := reach_nil hih
          exact congrArg (Option.map Prod.fst) hstep
        | cons first others =>
          rw [hfilter] at hih
          exact reach_cons_iff.mpr ⟨l', hstep, hih⟩

/-! ## Names and components -/

/-- The name that a component has on the way to a place, if any. -/
def nameOf? : Component → Option String
  | .root | .current => none
  | .parent => some ".."
  | .name n => some n

/-- The name that a text between slashes is on the way to a place, unless it is empty or
a lone dot. -/
def stepOf? (segment : List Char) : Option String :=
  if segment = [] ∨ segment = ['.'] then none else some (String.ofList segment)

theorem bind_componentOf? (segment : List Char) :
    (Path.componentOf? segment).bind nameOf? = stepOf? segment := by
  unfold Path.componentOf? stepOf?
  split
  · rfl
  · rfl
  · rfl
  case _ hempty hdot _ =>
    rw [if_neg (not_or.mpr ⟨hempty, hdot⟩)]
    rfl

/-- **The names of a path, its lone dots apart, are told by its components.** -/
theorem filterMap_components (p : Path) :
    p.components.filterMap nameOf? = (segments p).1.filter (· ≠ ".") := by
  have hnames : ∀ all : List (List Char),
      ((all.filter (· ≠ [])).map String.ofList).filter (· ≠ ".") = all.filterMap stepOf? := by
    intro all
    induction all with
    | nil => rfl
    | cons segment all ih =>
      by_cases hempty : segment = []
      · rw [List.filter_cons_of_neg (by simpa using hempty), ih,
          List.filterMap_cons_none (by rw [stepOf?, if_pos (.inl hempty)])]
      rw [List.filter_cons_of_pos (by simpa using hempty), List.map_cons]
      by_cases hdot : segment = ['.']
      · rw [List.filter_cons_of_neg (by simp [hdot]), ih,
          List.filterMap_cons_none (by rw [stepOf?, if_pos (.inr hdot)])]
      · have hne : String.ofList segment ≠ "." := fun heq =>
          hdot (by rw [← String.toList_ofList (l := segment), heq]; rfl)
        rw [List.filter_cons_of_pos (by simpa using hne), ih,
          List.filterMap_cons_some (by rw [stepOf?, if_neg (not_or.mpr ⟨hempty, hdot⟩)])]
  have hsteps : ∀ all : List (List Char),
      (all.filterMap Path.componentOf?).filterMap nameOf? = all.filterMap stepOf? := by
    intro all
    rw [List.filterMap_filterMap]
    exact congrArg (all.filterMap ·) (funext bind_componentOf?)
  refine Eq.trans ?_ (hnames _).symm
  rw [Path.components_eq]
  generalize splitSlash p.text.toList = all
  unfold Path.componentsOf
  split
  · rw [List.filterMap_append, hsteps]
    split <;> rfl
  · exact hsteps _
  · exact hsteps _

/-- **A path is absolute if the root is among its components.** -/
theorem root_mem_components_iff (p : Path) :
    .root ∈ p.components ↔ p.isAbsolute = true := by
  have hnone : ∀ all : List (List Char), .root ∉ all.filterMap Path.componentOf? := by
    intro all hmem
    obtain ⟨segment, -, hsegment⟩ := List.mem_filterMap.mp hmem
    unfold Path.componentOf? at hsegment
    split at hsegment <;> cases hsegment
  rw [Path.components_eq, Path.isAbsolute]
  cases p.text.toList with
  | nil => exact iff_of_false List.not_mem_nil (by decide)
  | cons c cs =>
    obtain ⟨first, others, hcs⟩ := exists_splitSlash_eq cs
    by_cases hc : c = '/'
    · subst hc
      refine iff_of_true ?_ rfl
      rw [splitSlash, if_pos rfl, hcs]
      exact List.mem_append_left _ List.mem_cons_self
    · refine iff_of_false ?_ (by simpa using hc)
      rw [splitSlash, if_neg hc, hcs]
      unfold Path.componentsOf
      split
      case h_1 heq => cases heq
      case h_2 => exact fun hmem => hnone _ ((List.mem_cons.mp hmem).resolve_left Component.noConfusion)
      case h_3 => exact hnone _

/-! ## The place of a path -/

/-- **A path is followed for its names**, unless there is something wrong with its
text. -/
theorem resolve_cases (start : Location) (p : Path) :
    (∃ e, ∀ t : FileTree, t.resolve start p = .error e)
      ∨ (p.isAbsolute = true ∨ (segments p).1 ≠ [])
        ∧ ∀ t : FileTree, t.resolve start p
          = (·, (segments p).2) <$> t.follow (if p.isAbsolute then [] else start) (segments p).1 := by
  by_cases htext : p.text = ""
  · exact .inl ⟨_, fun t => by rw [resolve, if_pos htext]⟩
  by_cases hnul : p.text.toList.contains '\x00' = true
  · exact .inl ⟨_, fun t => by rw [resolve, if_neg htext, if_pos hnul]⟩
  by_cases hlong : maxPathBytes < p.text.utf8ByteSize
  · exact .inl ⟨_, fun t => by rw [resolve, if_neg htext, if_neg hnul, if_pos hlong]⟩
  · refine .inr ⟨?_, fun t => by rw [resolve, if_neg htext, if_neg hnul, if_neg hlong]⟩
    -- a text without names is made of slashes
    rw [Path.isAbsolute]
    unfold segments
    cases hp : p.text.toList with
    | nil => exact absurd (String.toList_inj.mp hp) htext
    | cons c cs =>
      obtain ⟨first, others, hcs⟩ := exists_splitSlash_eq cs
      by_cases hc : c = '/'
      · exact .inl (by rw [hc]; rfl)
      · refine .inr ?_
        rw [splitSlash, if_neg hc, hcs]
        simp

/-- What a path is resolved to is what its names lead to. -/
theorem follow_of_resolve {target : Target} {slash : Bool}
    (h : t.resolve start p = .ok (target, slash)) :
    t.follow (if p.isAbsolute then [] else start) (segments p).1 = .ok target := by
  rcases resolve_cases start p with ⟨e, he⟩ | ⟨-, hresolve⟩
  · cases (he t).symm.trans h
  · rw [hresolve] at h
    cases hfollow : t.follow (if p.isAbsolute then [] else start) (segments p).1 with
    | error e =>
      rw [hfollow] at h
      cases h
    | ok followed =>
      rw [hfollow] at h
      exact congrArg (Except.ok ·.1) (Except.ok.inj h)

/-- The place of a path is where its names lead. -/
theorem reach_of_placeOf? (h : t.placeOf? start p = some l) :
    t.reach (if p.isAbsolute then [] else start) (segments p).1 = some l := by
  unfold placeOf? at h
  cases hresolve : t.resolve start p with
  | error e =>
    rw [hresolve] at h
    cases h
  | ok found =>
    obtain ⟨target, slash⟩ := found
    rw [hresolve] at h
    rw [reach, follow_of_resolve hresolve]
    cases target with
    | found l' node => cases node <;> exact h
    | missing l' => exact h
    | unnameable => cases h

/-- **Paths with the same components lead to the same place**, if they lead
anywhere. -/
theorem placeOf?_eq_of_isSame (hsame : p.isSame q = true) (hp : t.placeOf? start p = some l)
    (hq : t.placeOf? start q = some m) : l = m := by
  have hcomponents : p.components = q.components := beq_iff_eq.mp hsame
  have hnames : (segments p).1.filter (· ≠ ".") = (segments q).1.filter (· ≠ ".") := by
    rw [← filterMap_components, ← filterMap_components, hcomponents]
  have habsolute : p.isAbsolute = q.isAbsolute := by
    rw [Bool.eq_iff_iff, ← root_mem_components_iff, ← root_mem_components_iff, hcomponents]
  have hp' := reach_filter (reach_of_placeOf? hp)
  have hq' := reach_filter (reach_of_placeOf? hq)
  rw [hnames, habsolute] at hp'
  exact Option.some.inj (hp'.symm.trans hq')

/-! ## Reading and writing at a place -/

/-- **The place at which a file can be read or written** at a path: a place that is no
directory, with no slash behind its last name. -/
def filePlace? (t : FileTree) (start : Location) (p : Path) : Option Location :=
  match t.resolve start p with
  | .ok (.found l (.file _), false) | .ok (.missing l, false) => some l
  | _ => none

theorem filePlace?_eq_bind {followed : Except FileError Target} {slash : Bool}
    (h : t.resolve start p = (·, slash) <$> followed) :
    t.filePlace? start p
      = (spotOf? followed).bind fun spot => if spot.2 || slash then none else some spot.1 := by
  rw [filePlace?, h]
  cases followed with
  | error e => rfl
  | ok target =>
    cases target with
    | found l node => cases node <;> cases slash <;> rfl
    | missing l => cases slash <;> rfl
    | unnameable => rfl

/-- **The place at which a file can be read or written is told by the directories.** -/
theorem filePlace?_congr (h : SameDirectories t t') (start : Location) (p : Path) :
    t.filePlace? start p = t'.filePlace? start p := by
  rcases resolve_cases start p with ⟨e, he⟩ | ⟨hnames, hresolve⟩
  · rw [filePlace?, filePlace?, he, he]
  · rw [filePlace?_eq_bind (hresolve t), filePlace?_eq_bind (hresolve t')]
    cases hsegments : (segments p).1 with
    | nil =>
      -- without a name the path is that of the root
      have habsolute := hnames.resolve_right (not_not.mpr hsegments)
      have hroot : ∀ t : FileTree, t.follow [] [] = .ok (.found [] .directory) := fun t => by
        rw [follow, get?, if_pos rfl]
      rw [if_pos habsolute, hroot, hroot]
    | cons segment names => rw [spotOf?_follow_congr h]

/-- **What is found at such a place**: a file, or nothing. -/
theorem filePlace?_eq_some_iff :
    t.filePlace? start p = some l
      ↔ (∃ bytes, t.resolve start p = .ok (.found l (.file bytes), false))
        ∨ t.resolve start p = .ok (.missing l, false) := by
  unfold filePlace?
  split
  case h_1 l' bytes heq => simp [heq]
  case h_2 l' heq => simp [heq]
  case h_3 hfound hmissing =>
    refine iff_of_false (by simp) (not_or.mpr ⟨?_, fun h => hmissing l h⟩)
    rintro ⟨bytes, h⟩
    exact hfound l bytes h

theorem get?_of_stepInto_missing {segment : String}
    (h : t.stepInto l segment = .ok (.missing m)) : t.get? m = none := by
  unfold stepInto at h
  split at h
  · cases h
  · cases h
  split at h
  · cases h
  split at h
  · cases h
  split at h
  · cases h
  split at h
  · cases h
  · rename_i hnone
    cases h
    exact hnone

/-- Where nothing was found nothing is. -/
theorem get?_of_follow_missing {names : List String} (h : t.follow l names = .ok (.missing m)) :
    t.get? m = none := by
  induction names generalizing l with
  | nil =>
    rw [follow] at h
    split at h <;> cases h
  | cons segment names ih =>
    cases names with
    | nil => exact get?_of_stepInto_missing h
    | cons next names =>
      rw [follow] at h
      · split at h
        · exact ih h
        all_goals cases h
      · exact List.cons_ne_nil _ _

/-- **What is at such a place**: a file, or nothing. -/
theorem get?_of_resolve (h : t.filePlace? start p = some l) :
    (∃ bytes, t.resolve start p = .ok (.found l (.file bytes), false)
        ∧ t.get? l = some (.file bytes))
      ∨ t.resolve start p = .ok (.missing l, false) ∧ t.get? l = none := by
  rcases filePlace?_eq_some_iff.mp h with ⟨bytes, hresolve⟩ | hresolve
  · exact .inl ⟨bytes, hresolve, (isOn_of_resolve hresolve).resolve_left FileNode.noConfusion⟩
  · exact .inr ⟨hresolve, get?_of_follow_missing (follow_of_resolve hresolve)⟩

/-- A path that leads to such a place leads to no directory, and not to the root. -/
theorem of_filePlace? (h : t.filePlace? start p = some l) :
    t.placeOf? start p = some l ∧ l ≠ [] ∧ t.isDirectoryAt l = false := by
  have hdirectory : t.isDirectoryAt l = false := by
    rcases get?_of_resolve h with ⟨bytes, -, hget⟩ | ⟨-, hget⟩ <;> rw [isDirectoryAt, hget]
  refine ⟨?_, ?_, hdirectory⟩
  · rcases filePlace?_eq_some_iff.mp h with ⟨bytes, hresolve⟩ | hresolve <;>
      rw [placeOf?, hresolve]
  · rintro rfl
    cases hdirectory

/-- **A file is read at its place.** -/
theorem read_eq_ok_iff {bytes : ByteArray} :
    t.read start p = .ok bytes ↔ ∃ l, t.filePlace? start p = some l ∧ t.fileAt? l = some bytes := by
  constructor
  · intro h
    obtain ⟨l, hplace, hbytes⟩ := fileAt?_of_read h
    refine ⟨l, ?_, hbytes⟩
    unfold read at h
    cases hresolve : t.resolve start p with
    | error e =>
      rw [hresolve] at h
      cases h
    | ok found =>
      rw [hresolve] at h
      rw [placeOf?, hresolve] at hplace
      obtain ⟨target, slash⟩ := found
      rw [filePlace?, hresolve]
      cases target with
      | missing l' => cases h
      | unnameable => cases h
      | found l' node =>
        cases node with
        | directory => cases h
        | file bytes' =>
          cases slash with
          | true => cases h
          | false => exact hplace
  · rintro ⟨l, hplace, hbytes⟩
    rcases get?_of_resolve hplace with ⟨bytes', hresolve, hget⟩ | ⟨-, hget⟩
    · rw [fileAt?, hget] at hbytes
      cases hbytes
      rw [read, hresolve]
      rfl
    · rw [fileAt?, hget] at hbytes
      cases hbytes

/-- **A file is written at its place**, whether or not one is there. -/
theorem write_eq_ok_iff {bytes : ByteArray} :
    t.write start p bytes = .ok t'
      ↔ ∃ l, t.filePlace? start p = some l ∧ t.set l (.file bytes) = t' := by
  constructor
  · intro h
    unfold write at h
    cases hresolve : t.resolve start p with
    | error e =>
      rw [hresolve] at h
      cases h
    | ok found =>
      rw [hresolve] at h
      obtain ⟨target, slash⟩ := found
      rw [filePlace?, hresolve]
      cases slash with
      | true => cases target <;> cases h
      | false =>
        cases target with
        | missing l => exact ⟨l, rfl, Except.ok.inj h⟩
        | unnameable => cases h
        | found l node =>
          cases node with
          | directory => cases h
          | file bytes' => exact ⟨l, rfl, Except.ok.inj h⟩
  · rintro ⟨l, hplace, rfl⟩
    rcases get?_of_resolve hplace with ⟨bytes', hresolve, -⟩ | ⟨hresolve, -⟩ <;>
      rw [write, hresolve] <;> rfl

end FileTree

end Offside
