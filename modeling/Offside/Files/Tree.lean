import Offside.Files.Error
import Offside.Path.Basic

/-!
# A tree of files

A file system as a value: which places there are, and what is at each of them.
A **place** is the list of names on the way to it from the root, so every
place has one spelling. The root is a directory, and a place is on the tree
only if the place around it is a directory.

A path is followed name by name from the directory it starts in. What stands
at its end may be missing, since a file can be written there. A slash or a dot
behind the last name asks for a directory. Names and paths have a greatest
length, in bytes; that of the path counts before any of its names is looked at.

`FileTree.get?_set` and `FileTree.get?_set_of_ne` say what writing means: the
place that is written holds the new content, and no other place changes.
-/

namespace Offside

/-- **A place on a tree of files**: the names on the way to it. -/
abbrev Location := List String

/-- **What is at a place.** -/
inductive FileNode where
  /-- A directory. -/
  | directory
  /-- A file and its bytes. -/
  | file (bytes : ByteArray)

/-- **A tree of files**: the places other than the root, each with what is
there. -/
structure FileTree where
  /-- The places; of two entries for one place the first counts. -/
  entries : List (Location × FileNode)

namespace FileTree

/-- The tree with nothing but the root. -/
def empty : FileTree := ⟨[]⟩

/-- **What is at a place**, if anything. -/
def get? (t : FileTree) (l : Location) : Option FileNode :=
  if l = [] then some .directory else t.entries.lookup l

/-! ## Following a path -/

/-- **Where a path leads**, as far as it can be told. -/
inductive Target where
  /-- To something that is there. -/
  | found (l : Location) (node : FileNode)
  /-- To a place in a directory where nothing is. -/
  | missing (l : Location)
  /-- Into a directory, but by a name too long for anything to be there. -/
  | unnameable

/-- The longest name that is taken, in bytes. -/
def maxNameBytes : Nat := 255

/-- The longest path that is taken, in bytes. -/
def maxPathBytes : Nat := 4095

/-- One name further. -/
def stepInto (t : FileTree) (l : Location) (segment : String) : Except FileError Target :=
  match t.get? l with
  | none => .error .notFound
  | some (.file _) => .error .notDirectory
  | some .directory =>
    if segment = "." then .ok (.found l .directory)
    else if segment = ".." then .ok (.found l.dropLast .directory)
    else if maxNameBytes < segment.utf8ByteSize then .ok .unnameable
    else match t.get? (l ++ [segment]) with
      | some node => .ok (.found (l ++ [segment]) node)
      | none => .ok (.missing (l ++ [segment]))

/-- **Follow names from a place.** All but the last have to be there. -/
def follow (t : FileTree) (l : Location) : List String → Except FileError Target
  | [] =>
    match t.get? l with
    | some node => .ok (.found l node)
    | none => .error .notFound
  | [segment] => t.stepInto l segment
  | segment :: segments =>
    match t.stepInto l segment with
    | .ok (.found l' _) => t.follow l' segments
    | .ok (.missing _) => .error .notFound
    | .ok .unnameable => .error .nameTooLong
    | .error e => .error e

/-- The names in a path, dots among them, and whether a slash follows the last
of them. -/
def segments (p : Path) : List String × Bool :=
  let all := splitSlash p.text.toList
  ((all.filter (· ≠ [])).map String.ofList, all.getLast? == some [])

/-- **Where a path leads** for someone in the directory `start`, and whether a
slash follows its last name. -/
def resolve (t : FileTree) (start : Location) (p : Path) : Except FileError (Target × Bool) :=
  if p.text = "" then .error .notFound
  else if p.text.toList.contains '\x00' then .error .nulInName
  else if maxPathBytes < p.text.utf8ByteSize then .error .nameTooLong
  else
    let (names, slash) := segments p
    (·, slash) <$> t.follow (if p.isAbsolute then [] else start) names

/-! ## What writing changes -/

/-- Replacing the entry of a place, in a list of entries. -/
def replaceEntry (l : Location) (node : FileNode) (es : List (Location × FileNode)) :
    List (Location × FileNode) :=
  es.map fun e => if e.1 = l then (l, node) else e

theorem lookup_replaceEntry {l : Location} (node : FileNode) {es : List (Location × FileNode)}
    (h : ∃ e ∈ es, e.1 = l) : (replaceEntry l node es).lookup l = some node := by
  induction es with
  | nil => simp at h
  | cons x xs ih =>
    rw [replaceEntry, List.map_cons]
    by_cases hx : x.1 = l
    · rw [if_pos hx, List.lookup_cons_self]
    · have hne : (l == x.1) = false := by simpa using fun h => hx h.symm
      rw [if_neg hx, List.lookup_cons, hne]
      exact ih (by simpa [hx] using h)

theorem lookup_replaceEntry_of_ne {l m : Location} (h : m ≠ l) (node : FileNode)
    (es : List (Location × FileNode)) : (replaceEntry l node es).lookup m = es.lookup m := by
  have hm : (m == l) = false := by simpa using h
  induction es with
  | nil => rfl
  | cons x xs ih =>
    rw [replaceEntry, List.map_cons, List.lookup_cons, List.lookup_cons, ← replaceEntry, ih]
    by_cases hx : x.1 = l
    · rw [if_pos hx, hx, hm]
    · rw [if_neg hx]

/-- **The tree with something at a place.** What was there is replaced; where
nothing was, the place is added at the end. -/
def set (t : FileTree) (l : Location) (node : FileNode) : FileTree :=
  if t.entries.any (·.1 == l) then ⟨replaceEntry l node t.entries⟩
  else ⟨t.entries ++ [(l, node)]⟩

/-- **What was written is there.** -/
theorem get?_set (t : FileTree) {l : Location} (hl : l ≠ []) (node : FileNode) :
    (t.set l node).get? l = some node := by
  rw [get?, if_neg hl, set]
  split
  · rename_i h
    exact lookup_replaceEntry node (by simpa using h)
  · rename_i h
    have hnone : t.entries.lookup l = none := by
      rw [List.lookup_eq_none_iff]
      intro e he
      simpa using fun hel : l = e.1 => h (by simpa using ⟨e.2, by simpa [hel] using he⟩)
    rw [List.lookup_append, hnone, List.lookup_cons_self]
    rfl

/-- **No other place changes.** -/
theorem get?_set_of_ne (t : FileTree) {l m : Location} (h : m ≠ l) (node : FileNode) :
    (t.set l node).get? m = t.get? m := by
  have hm : (m == l) = false := by simpa using h
  rw [get?, get?, set]
  split
  · rfl
  · split
    · exact lookup_replaceEntry_of_ne h node t.entries
    · rw [List.lookup_append, List.lookup_cons, hm]
      exact Option.or_none

/-! ## Reading and writing -/

/-- **The bytes of a file.** -/
def read (t : FileTree) (start : Location) (p : Path) : Except FileError ByteArray := do
  match ← t.resolve start p with
  | (.found _ .directory, _) => .error .isDirectory
  | (.found _ (.file _), true) => .error .notDirectory
  | (.found _ (.file bytes), false) => .ok bytes
  | (.missing _, _) => .error .notFound
  | (.unnameable, _) => .error .nameTooLong

/-- **The tree after bytes were written to a file**, which is made if it is
not there. A slash behind the last name asks for a directory, so nothing is
written there, whatever the name leads to. -/
def write (t : FileTree) (start : Location) (p : Path) (bytes : ByteArray) :
    Except FileError FileTree := do
  match ← t.resolve start p with
  | (_, true) => .error .isDirectory
  | (.found _ .directory, false) => .error .isDirectory
  | (.found l (.file _), false) => .ok (t.set l (.file bytes))
  | (.missing l, false) => .ok (t.set l (.file bytes))
  | (.unnameable, false) => .error .nameTooLong

end FileTree

end Offside
