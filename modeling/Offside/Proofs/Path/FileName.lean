import Offside.Path.Basic

/-!
# Names and components

Cutting a path at its file name works on the text, and comparing two paths works on
their components. A text that was cut (`Path.CutAt`) is put together again from what
stands before the name, the name, and what is ignored behind it. The components of what
stands before do not depend on the name (`exists_components_eq`), and what is ignored
has none. So a name that is put in place of another changes the last component alone.

With another extension the last component gets another extension too
(`components_withExtension`). There is one exception: a file name that has nothing but
a dot before its extension leaves two dots, and two dots are no name.
-/

namespace Offside

/-- Splitting at slashes is splitting at a letter. -/
theorem splitSlash_eq_splitOn (cs : List Char) : splitSlash cs = cs.splitOn '/' := by
  induction cs with
  | nil => rfl
  | cons c cs ih =>
    rw [splitSlash, List.splitOn_cons_eq_if_modifyHead, ih]
    by_cases hc : c = '/'
    · rw [if_pos hc, if_pos (beq_iff_eq.mpr hc)]
    · rw [if_neg hc, if_neg (mt beq_iff_eq.mp hc)]
      obtain ⟨segment, segments, h⟩ := List.exists_cons_of_ne_nil (List.splitOn_ne_nil '/' cs)
      rw [h]
      rfl

/-- There is a segment before the first slash. -/
theorem exists_splitSlash_eq (cs : List Char) :
    ∃ first segments, splitSlash cs = first :: segments := by
  rw [splitSlash_eq_splitOn]
  exact List.exists_cons_of_ne_nil (List.splitOn_ne_nil '/' cs)

theorem splitSlash_append_slash (cs more : List Char) :
    splitSlash (cs ++ '/' :: more) = splitSlash cs ++ splitSlash more := by
  simp only [splitSlash_eq_splitOn, List.splitOn_append_cons_self]

/-- What stands before the first slash is part of the first segment. -/
theorem splitSlash_append {segment cs first : List Char} {segments : List (List Char)}
    (h : '/' ∉ segment) (hcs : splitSlash cs = first :: segments) :
    splitSlash (segment ++ cs) = (segment ++ first) :: segments := by
  induction segment with
  | nil => exact hcs
  | cons c segment ih =>
    rw [List.mem_cons, not_or] at h
    rw [List.cons_append, splitSlash, if_neg (Ne.symm h.1), ih h.2]
    rfl

namespace Path

/-! ## Components of segments -/

/-- The components of the texts between slashes. -/
def componentsOf : List (List Char) → List Component
  | [] :: segments => (if segments.isEmpty then [] else [.root]) ++ segments.filterMap componentOf?
  | ['.'] :: segments => .current :: segments.filterMap componentOf?
  | segments => segments.filterMap componentOf?

theorem components_eq (p : Path) : p.components = componentsOf (splitSlash p.text.toList) := rfl

/-- The components of texts between slashes that have more behind them. -/
def leading : List (List Char) → List Component
  | [] :: segments => .root :: segments.filterMap componentOf?
  | ['.'] :: segments => .current :: segments.filterMap componentOf?
  | segments => segments.filterMap componentOf?

theorem componentsOf_append {segments more : List (List Char)} (hs : segments ≠ [])
    (hm : more ≠ []) :
    componentsOf (segments ++ more) = leading segments ++ more.filterMap componentOf? := by
  obtain ⟨first, segments, rfl⟩ := List.exists_cons_of_ne_nil hs
  by_cases hempty : first = []
  · have hne : (segments ++ more).isEmpty = false := by simpa using fun _ => hm
    subst hempty
    rw [List.cons_append, componentsOf, hne, List.filterMap_append]
    rfl
  by_cases hdot : first = ['.']
  · subst hdot
    rw [List.cons_append, componentsOf, List.filterMap_append]
    rfl
  · rw [List.cons_append, componentsOf, leading, ← List.cons_append, List.filterMap_append]
    all_goals simp_all

/-- A text that names something is neither empty nor a lone dot. -/
theorem componentsOf_cons {segment : List Char} {c : Component} (h : componentOf? segment = some c)
    (segments : List (List Char)) :
    componentsOf (segment :: segments) = c :: segments.filterMap componentOf? := by
  unfold componentsOf
  split <;> simp_all [componentOf?]

/-- **What may stand before a name**: nothing, or a text that ends with a slash. -/
def EndsSegment (before : List Char) : Prop := before = [] ∨ ∃ outer, before = outer ++ ['/']

/-- **What means nothing behind a name**: it ends the name, and names nothing. -/
def Ignorable (ignored : List Char) : Prop :=
  ∃ segments, splitSlash ignored = [] :: segments ∧ segments.filterMap componentOf? = []

theorem ignorable_nil : Ignorable [] := ⟨[], rfl, rfl⟩

theorem Ignorable.append_slash {ignored rest : List Char} (h : Ignorable ignored)
    (hrest : componentOf? rest = none) (hslash : '/' ∉ rest) :
    Ignorable (ignored ++ '/' :: rest) := by
  obtain ⟨segments, hsplit, hnone⟩ := h
  have hlast : splitSlash rest = [rest] := by
    rw [splitSlash_eq_splitOn, List.splitOn_eq_singleton hslash]
  refine ⟨segments ++ [rest], ?_, ?_⟩
  · rw [splitSlash_append_slash, hsplit, hlast, List.cons_append]
  · rw [List.filterMap_append, hnone, List.nil_append, List.filterMap_cons_none hrest,
      List.filterMap_nil]

/-- **A name adds one component**, whatever stands before it. -/
theorem exists_components_eq {before : String} (h : EndsSegment before.toList) :
    ∃ around, ∀ (segment ignored : String) {c : Component}, '/' ∉ segment.toList →
      componentOf? segment.toList = some c → Ignorable ignored.toList →
        (Path.mk (before ++ segment ++ ignored)).components = around ++ [c] := by
  have hrest : ∀ {segment ignored : List Char} {c : Component}, '/' ∉ segment →
      componentOf? segment = some c → Ignorable ignored →
        ∃ segments, splitSlash (segment ++ ignored) = segment :: segments
          ∧ segments.filterMap componentOf? = [] := by
    rintro segment ignored c hslash - ⟨segments, hsplit, hnone⟩
    refine ⟨segments, ?_, hnone⟩
    rw [splitSlash_append hslash hsplit, List.append_nil]
  rcases h with h | ⟨outer, h⟩
  · refine ⟨[], fun segment ignored c hslash hc hignored => ?_⟩
    obtain ⟨segments, hsplit, hnone⟩ := hrest hslash hc hignored
    rw [components_eq, String.toList_append, String.toList_append, h, List.nil_append, hsplit,
      componentsOf_cons hc, hnone]
    rfl
  · refine ⟨leading (splitSlash outer), fun segment ignored c hslash hc hignored => ?_⟩
    obtain ⟨segments, hsplit, hnone⟩ := hrest hslash hc hignored
    obtain ⟨first, others, houter⟩ := exists_splitSlash_eq outer
    have hne : splitSlash outer ≠ [] := houter ▸ List.cons_ne_nil first others
    rw [components_eq, String.toList_append, String.toList_append, h, List.append_assoc,
      List.append_assoc, List.singleton_append, splitSlash_append_slash, hsplit,
      componentsOf_append hne (List.cons_ne_nil _ _), List.filterMap_cons_some hc, hnone]

/-! ## Cutting a path at its file name -/

/-- **A path cut at a name**, which is its last component. -/
structure CutAt (p : Path) (before name ignored : String) : Prop where
  /-- The parts make up the path. -/
  text_eq : p.text = before ++ name ++ ignored
  /-- The name begins after a slash, if anything stands before it. -/
  endsSegment : EndsSegment before.toList
  /-- There is no slash in the name. -/
  slash_not_mem : '/' ∉ name.toList
  /-- It is a name. -/
  componentOf_eq : componentOf? name.toList = some (.name name)
  /-- What is behind it means nothing. -/
  ignorable : Ignorable ignored.toList

/-- What is dropped at the end of a path means nothing. -/
theorem exists_ignorable (rev : List Char) :
    ∃ ignored, rev = ignored ++ dropIgnored rev ∧ Ignorable ignored.reverse := by
  fun_induction dropIgnored rev with
  | case1 rev ih =>
    obtain ⟨ignored, hrev, h⟩ := ih
    refine ⟨'/' :: ignored, congrArg ('/' :: ·) hrev, ?_⟩
    rw [List.reverse_cons]
    exact h.append_slash rfl List.not_mem_nil
  | case2 rev ih =>
    obtain ⟨ignored, hrev, h⟩ := ih
    refine ⟨'.' :: '/' :: ignored, congrArg ('.' :: '/' :: ·) hrev, ?_⟩
    rw [List.reverse_cons, List.reverse_cons, List.append_assoc]
    exact h.append_slash rfl (by decide)
  | case3 rev => exact ⟨[], rfl, ignorable_nil⟩

/-- What stands before the last slash is nothing, or ends with that slash. -/
theorem endsSegment_reverse_dropWhile (kept : List Char) :
    EndsSegment (kept.dropWhile (· ≠ '/')).reverse := by
  cases h : kept.dropWhile (· ≠ '/') with
  | nil => exact .inl rfl
  | cons c rest =>
    obtain rfl : c = '/' := by
      have hhead := List.head?_dropWhile_not (· ≠ '/') kept
      rw [h] at hhead
      simpa using hhead
    exact .inr ⟨rest.reverse, List.reverse_cons⟩

theorem componentOf?_eq_name {segment : List Char} (hempty : segment ≠ []) (hdot : segment ≠ ['.'])
    (hdots : segment ≠ ['.', '.']) :
    componentOf? segment = some (.name (String.ofList segment)) := by
  unfold componentOf?
  split
  · exact absurd rfl hempty
  · exact absurd rfl hdot
  · exact absurd rfl hdots
  · rfl

/-- **The file name of a path is cut off at its last component.** -/
theorem cutAt_of_splitFileName? {p : Path} {before name ignored : String}
    (h : p.splitFileName? = some (before, name, ignored)) : p.CutAt before name ignored := by
  obtain ⟨dropped, hrev, hignorable⟩ := exists_ignorable p.text.toList.reverse
  unfold splitFileName? at h
  simp only at h
  generalize dropIgnored p.text.toList.reverse = kept at h hrev
  have htake : p.text.toList.reverse.take (p.text.toList.reverse.length - kept.length) = dropped := by
    rw [hrev, List.length_append, Nat.add_sub_cancel, List.take_left]
  rw [htake] at h
  split at h
  · cases h
  · cases h
  · cases h
  · rename_i hempty hdot hdots
    cases h
    refine ⟨?_, ?_, ?_, ?_, ?_⟩
    · rw [← String.toList_inj, String.toList_append, String.toList_append, String.toList_ofList,
        String.toList_ofList, String.toList_ofList, ← List.reverse_append,
        List.takeWhile_append_dropWhile, ← List.reverse_append, ← hrev, List.reverse_reverse]
    · rw [String.toList_ofList]
      exact endsSegment_reverse_dropWhile kept
    · rw [String.toList_ofList, List.mem_reverse]
      intro hmem
      exact absurd (List.all_eq_true.mp List.all_takeWhile '/' hmem) (by simp)
    · rw [String.toList_ofList]
      exact componentOf?_eq_name hempty hdot hdots
    · rw [String.toList_ofList]
      exact hignorable

/-! ## Cutting a name at its last dot -/

/-- What is left from a dot on begins with that dot. -/
theorem head_dropWhile_dot {cs rest : List Char} {c : Char}
    (h : cs.dropWhile (· ≠ '.') = c :: rest) : c = '.' := by
  have hhead := List.head?_dropWhile_not (· ≠ '.') cs
  rw [h] at hhead
  simpa using hhead

/-- **A name with an extension** is put together from its stem and that. -/
theorem splitExtension_eq_some {name stem ext : String}
    (h : splitExtension name = (stem, some ext)) :
    name = stem ++ "." ++ ext ∧ stem ≠ "" ∧ '.' ∉ ext.toList := by
  have hcut := List.takeWhile_append_dropWhile (p := (· ≠ '.')) (l := name.toList.reverse)
  have hall := List.all_takeWhile (p := (· ≠ '.')) (l := name.toList.reverse)
  unfold splitExtension at h
  simp only at h
  generalize name.toList.reverse.takeWhile (· ≠ '.') = last at h hcut hall
  split at h
  · cases h
  · cases h
  · rename_i c rest hne hdrop
    cases h
    obtain rfl := head_dropWhile_dot hdrop
    rw [hdrop] at hcut
    have hname : name.toList = rest.reverse ++ '.' :: last.reverse := by
      rw [← List.reverse_reverse name.toList, ← hcut, List.reverse_append, List.reverse_cons,
        List.append_assoc]
      rfl
    refine ⟨?_, fun hstem => hne rfl (by simpa using hstem), fun hmem => ?_⟩
    · rw [← String.toList_inj, hname]
      simp
    · rw [String.toList_ofList, List.mem_reverse] at hmem
      exact absurd (List.all_eq_true.mp hall '.' hmem) (by simp)

/-- The extension of a name that was put together. -/
theorem splitExtension_append {stem ext : String} (hstem : stem ≠ "") (hext : '.' ∉ ext.toList) :
    splitExtension (stem ++ "." ++ ext) = (stem, some ext) := by
  have hrev : (stem ++ "." ++ ext).toList.reverse
      = ext.toList.reverse ++ '.' :: stem.toList.reverse := by
    rw [String.toList_append, String.toList_append, List.reverse_append, List.reverse_append]
    rfl
  have hpos : ∀ c ∈ ext.toList.reverse, decide (c ≠ '.') = true := fun c hc =>
    decide_eq_true fun heq => hext (heq ▸ List.mem_reverse.mp hc)
  have hne : stem.toList.reverse ≠ [] := by simpa using hstem
  unfold splitExtension
  simp only [hrev, List.takeWhile_append_of_pos hpos, List.dropWhile_append_of_pos hpos]
  rw [List.takeWhile_cons_of_neg (by simp), List.dropWhile_cons_of_neg (by simp), List.append_nil,
    List.reverse_reverse, String.ofList_toList]
  split
  case h_1 heq => cases heq
  case h_2 heq => exact absurd (List.cons.inj heq).2 hne
  case h_3 heq =>
    obtain ⟨-, rfl⟩ := List.cons.inj heq
    rw [List.reverse_reverse, String.ofList_toList]

/-! ## Another extension -/

/-- A path with an extension, cut at its file name and at the dot in that. -/
theorem exists_cutAt_of_extension? {p : Path} {old : String} (h : p.extension? = some old) :
    ∃ before stem ignored, p.splitFileName? = some (before, stem ++ "." ++ old, ignored)
      ∧ stem ≠ "" ∧ '.' ∉ old.toList := by
  rw [extension?, fileName?, Option.bind_eq_some_iff] at h
  obtain ⟨name, hname, hext⟩ := h
  obtain ⟨⟨before, _, ignored⟩, hsplit, rfl⟩ := Option.map_eq_some_iff.mp hname
  obtain ⟨heq, hstem, hdot⟩ := splitExtension_eq_some
    (Prod.ext rfl hext : splitExtension _ = ((splitExtension _).1, some old))
  exact ⟨before, _, ignored, hsplit.trans (by rw [← heq]), hstem, hdot⟩

/-- A name with an extension is neither a dot nor two. -/
theorem componentOf?_extended {stem ext : String} (hstem : stem ≠ "") (hext : ext ≠ "") :
    componentOf? (stem ++ "." ++ ext).toList = some (.name (stem ++ "." ++ ext)) := by
  have hlength : 3 ≤ (stem ++ "." ++ ext).toList.length := by
    have hstem' : 0 < stem.toList.length := List.length_pos_iff.mpr (by simpa using hstem)
    have hext' : 0 < ext.toList.length := List.length_pos_iff.mpr (by simpa using hext)
    have hdot : ".".toList.length = 1 := rfl
    rw [String.toList_append, String.toList_append, List.length_append, List.length_append]
    omega
  rw [componentOf?_eq_name, String.ofList_toList]
  all_goals
    intro heq
    rw [heq] at hlength
    exact absurd hlength (by decide)

/-- The components of a path that was cut, and those of the path with another name. -/
theorem CutAt.exists_components {p : Path} {before name ignored : String}
    (h : p.CutAt before name ignored) :
    ∃ around, p.components = around ++ [.name name]
      ∧ ∀ (other : String) {c : Component}, '/' ∉ other.toList →
        componentOf? other.toList = some c → (Path.mk (before ++ other)).components = around ++ [c] := by
  obtain ⟨around, haround⟩ := exists_components_eq h.endsSegment
  refine ⟨around, ?_, fun other c hslash hc => ?_⟩
  · have hp : p = ⟨before ++ name ++ ignored⟩ := congrArg Path.mk h.text_eq
    rw [hp, haround _ _ h.slash_not_mem h.componentOf_eq h.ignorable]
  · rw [← haround other "" hslash hc ignorable_nil, String.append_empty]

/-- **The last component of a path with an extension has that extension.** -/
theorem extension_unique {p : Path} {old stem ext : String} {around : List Component}
    (h : p.extension? = some old) (hp : p.components = around ++ [.name (stem ++ "." ++ ext)])
    (hstem : stem ≠ "") (hext : '.' ∉ ext.toList) : old = ext := by
  obtain ⟨before, stem', ignored, hsplit, hstem', hdot⟩ := exists_cutAt_of_extension? h
  obtain ⟨around', hp', -⟩ := (cutAt_of_splitFileName? hsplit).exists_components
  have hname : stem' ++ "." ++ old = stem ++ "." ++ ext := by
    have hlast := List.append_inj_right' (hp'.symm.trans hp) rfl
    simpa using hlast
  have hcut := congrArg splitExtension hname
  rw [splitExtension_append hstem' hdot, splitExtension_append hstem hext] at hcut
  exact Option.some.inj (Prod.ext_iff.mp hcut).2

/-- **With another extension the last component has another extension**, and all others
are the same. A lone dot before the extension makes two dots of the name. -/
theorem components_withExtension {p : Path} {old ext : String} (h : p.extension? = some old)
    (hext : ext ≠ "") (hslash : '/' ∉ ext.toList) :
    ∃ around stem, stem ≠ "" ∧ p.components = around ++ [.name (stem ++ "." ++ old)]
      ∧ ((p.withExtension ext).components = around ++ [.name (stem ++ "." ++ ext)]
        ∨ stem = "." ∧ (p.withExtension ext).components = around ++ [.parent]) := by
  obtain ⟨before, stem, ignored, hsplit, hstem, hdot⟩ := exists_cutAt_of_extension? h
  have hcut := cutAt_of_splitFileName? hsplit
  obtain ⟨around, hp, hother⟩ := hcut.exists_components
  refine ⟨around, stem, hstem, hp, ?_⟩
  have hstemslash : '/' ∉ stem.toList := fun hmem =>
    hcut.slash_not_mem (by simp [hmem])
  rw [withExtension, hsplit]
  simp only [splitExtension_append hstem hdot]
  by_cases hlone : stem = "." ∧ ignored = ""
  · rw [if_pos hlone]
    exact .inr ⟨hlone.1, hother ".." (by decide) rfl⟩
  · rw [if_neg hlone]
    refine .inl ?_
    have hnew : '/' ∉ (stem ++ "." ++ ext).toList := by simp [hstemslash, hslash]
    rw [← hother _ hnew (componentOf?_extended hstem hext)]
    simp only [String.append_assoc]

end Path

end Offside
