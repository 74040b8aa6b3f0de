import Offside.Layout.Render
import Offside.Proofs.Text.Join

/-!
# The lines of a text

What a layout puts together a reader takes apart: a text is cut into lines at
its line endings, and a line into its indentation and the rest. Both undo
what the layout did, under conditions on the texts it started from. A text
comes back as a line of its own if it is **unbroken**, with neither of the
two characters that line endings are made of, and it comes back from behind
its indentation if it is **flush**, with no space in front.

A text without characters has no lines. Cutting it at a line ending would
give one line with nothing in it, but nothing is laid out as such a line.
-/

namespace Offside

/-! ## Unbroken texts -/

/-- **A text on a single line**: neither carriage return nor line feed is in
it. -/
def Unbroken (text : String) : Prop :=
  ∀ c ∈ text.toList, c ≠ '\r' ∧ c ≠ '\n'

instance : DecidablePred Unbroken := fun text => List.decidableBAll _ text.toList

/-- Nothing breaks the empty text. -/
theorem unbroken_empty : Unbroken "" := List.forall_mem_nil _

theorem unbroken_append {text more : String} :
    Unbroken (text ++ more) ↔ Unbroken text ∧ Unbroken more := by
  unfold Unbroken
  rw [String.toList_append, List.forall_mem_append]

/-- A join is unbroken if what is joined is, and the separator. -/
theorem Unbroken.intercalate {separator : String} (hs : Unbroken separator) :
    ∀ {texts : List String}, (∀ text ∈ texts, Unbroken text) →
      Unbroken (separator.intercalate texts)
  | [], _ => by
    rw [String.intercalate_nil]
    exact unbroken_empty
  | [text], h => by
    rw [String.intercalate_singleton]
    exact h text List.mem_cons_self
  | text :: next :: rest, h => by
    rw [String.intercalate_cons_cons, unbroken_append, unbroken_append]
    have hrest : ∀ t ∈ next :: rest, Unbroken t :=
      fun t ht => h t (List.mem_cons_of_mem _ ht)
    exact ⟨⟨h text List.mem_cons_self, hs⟩, Unbroken.intercalate hs hrest⟩

theorem Unbroken.joinNonEmpty {separator : String} (hs : Unbroken separator)
    {texts : List String} (h : ∀ text ∈ texts, Unbroken text) :
    Unbroken (joinNonEmpty separator texts) :=
  Unbroken.intercalate hs (fun text ht => h text (List.mem_filter.mp ht).1)

/-- Indentation keeps a text unbroken. -/
theorem Unbroken.line (o : Options) (depth : Nat) {text : String} (h : Unbroken text) :
    Unbroken (o.line depth text) := by
  rw [Options.line, unbroken_append]
  refine ⟨fun c hc => ?_, h⟩
  rw [Options.indent, String.toList_ofList] at hc
  rw [List.eq_of_mem_replicate hc]
  decide

/-! ## Flush texts -/

/-- **A text that starts with no space.** -/
def Flush (text : String) : Prop := text.toList.head? ≠ some ' '

instance : DecidablePred Flush := fun _ => inferInstanceAs (Decidable (_ ≠ _))

/-- The empty text starts with nothing. -/
theorem flush_empty : Flush "" := nofun

/-- What follows a flush text matters only if that text is empty. -/
theorem Flush.append {text more : String} (h : Flush text) (hm : text = "" → Flush more) :
    Flush (text ++ more) := by
  by_cases he : text = ""
  · rw [he, String.empty_append]
    exact hm he
  · unfold Flush at h ⊢
    obtain ⟨c, rest, hc⟩ := List.exists_cons_of_ne_nil (mt String.toList_eq_nil_iff.mp he)
    rw [hc] at h
    rw [String.toList_append, hc]
    exact h

/-- A flush text that is not empty is flush whatever follows it. -/
theorem Flush.append_of_ne {text more : String} (h : Flush text) (hne : text ≠ "") :
    Flush (text ++ more) :=
  h.append (fun he => absurd he hne)

/-- A join starts with the first text that is not empty. -/
theorem Flush.joinNonEmpty {separator : String} : ∀ {texts : List String},
    (∀ text ∈ texts, Flush text) → Flush (joinNonEmpty separator texts)
  | [], _ => flush_empty
  | text :: rest, h => by
    have ih : Flush (Offside.joinNonEmpty separator rest) :=
      Flush.joinNonEmpty (fun t ht => h t (List.mem_cons_of_mem _ ht))
    by_cases he : text = ""
    · rw [he, joinNonEmpty_empty_cons]
      exact ih
    · have ht : Flush text := h text List.mem_cons_self
      unfold Offside.joinNonEmpty
      rw [List.filter_cons_of_pos (by simpa using he)]
      cases rest.filter (· ≠ "") with
      | nil => rwa [String.intercalate_singleton]
      | cons next more =>
        rw [String.intercalate_cons_cons, String.append_assoc]
        exact ht.append_of_ne he

/-! ## Cutting a text into lines -/

/-- **Characters cut at a separator**, from left to right. While `skip` is
not zero, that many characters still belong to the separator found last. -/
def cut (separator : List Char) : Nat → List Char → List (List Char)
  | _, [] => [[]]
  | skip + 1, _ :: rest => cut separator skip rest
  | 0, c :: rest =>
    if separator.isPrefixOf (c :: rest) then [] :: cut separator (separator.length - 1) rest
    else (cut separator 0 rest).modifyHead (c :: ·)

/-- **The lines of a text.** The empty text has none. -/
def LineEnding.lines (ending : LineEnding) (text : String) : List String :=
  if text = "" then [] else (cut ending.text.toList 0 text.toList).map String.ofList

section Cut

variable (s : Char) (separator : List Char)

/-- What is skipped is not cut. -/
theorem cut_length_append (skipped rest : List Char) :
    cut (s :: separator) skipped.length (skipped ++ rest) = cut (s :: separator) 0 rest := by
  induction skipped with
  | nil => rfl
  | cons c skipped ih => exact ih

/-- A separator in front ends an empty line. -/
theorem cut_separator_append (rest : List Char) :
    cut (s :: separator) 0 (s :: separator ++ rest) = [] :: cut (s :: separator) 0 rest := by
  have hp : (s :: separator).isPrefixOf (s :: (separator ++ rest)) = true :=
    List.isPrefixOf_iff_prefix.mpr (List.prefix_append (s :: separator) rest)
  show cut (s :: separator) 0 (s :: (separator ++ rest)) = _
  rw [cut, if_pos hp]
  exact congrArg _ (cut_length_append s separator separator rest)

/-- A line in front is added to the first line. -/
theorem cut_line_append {line : List Char} (h : s ∉ line) (rest : List Char) :
    cut (s :: separator) 0 (line ++ rest)
      = (cut (s :: separator) 0 rest).modifyHead (line ++ ·) := by
  induction line with
  | nil => exact (congrFun List.modifyHead_id _).symm
  | cons c line ih =>
    rw [List.mem_cons, not_or] at h
    have hp : ¬ (s :: separator).isPrefixOf (c :: (line ++ rest)) = true := by
      rw [List.isPrefixOf_cons_cons]
      simp [h.1]
    rw [List.cons_append, cut, if_neg hp, ih h.2, List.modifyHead_modifyHead]
    rfl

/-- **Lines that were joined are cut apart again**, if no line has the first
character of the separator. -/
theorem cut_intercalate {lines : List (List Char)} (hne : lines ≠ [])
    (h : ∀ line ∈ lines, s ∉ line) :
    cut (s :: separator) 0 ((s :: separator).intercalate lines) = lines := by
  induction lines with
  | nil => exact absurd rfl hne
  | cons line rest ih =>
    have hline : s ∉ line := h line List.mem_cons_self
    cases rest with
    | nil =>
      have hnil := cut_line_append s separator hline []
      rw [List.append_nil] at hnil
      rw [List.intercalate_singleton, hnil, cut, List.modifyHead_cons, List.append_nil]
    | cons next rest =>
      have ih' := ih (List.cons_ne_nil _ _) (fun l hl => h l (List.mem_cons_of_mem _ hl))
      rw [List.intercalate_cons_cons, List.append_assoc, cut_line_append s separator hline,
        cut_separator_append, ih', List.modifyHead_cons, List.append_nil]

end Cut

/-- **The lines of texts one below the other are these texts**, if each is a
line and none is empty. -/
theorem LineEnding.lines_intercalate (ending : LineEnding) {texts : List String}
    (hu : ∀ text ∈ texts, Unbroken text) (hne : ∀ text ∈ texts, text ≠ "") :
    ending.lines (ending.text.intercalate texts) = texts := by
  unfold lines
  by_cases ht : texts = []
  · rw [ht, String.intercalate_nil, if_pos rfl]
  · have hl : texts.map String.toList ≠ [] := mt List.map_eq_nil_iff.mp ht
    have hmem : ∀ {s : Char}, s = '\r' ∨ s = '\n' →
        ∀ line ∈ texts.map String.toList, s ∉ line := by
      intro s hs line hline hmem
      obtain ⟨text, htext, rfl⟩ := List.mem_map.mp hline
      exact hs.elim (hu text htext s hmem).1 (hu text htext s hmem).2
    have hcut : cut ending.text.toList 0 (ending.text.toList.intercalate (texts.map String.toList))
        = texts.map String.toList := by
      cases ending with
      | crlf => exact cut_intercalate '\r' ['\n'] hl (hmem (Or.inl rfl))
      | lf => exact cut_intercalate '\n' [] hl (hmem (Or.inr rfl))
    rw [if_neg (intercalate_ne_empty ht hne), String.toList_intercalate, hcut, List.map_map]
    exact List.map_id'' (fun _ => String.ofList_toList) texts

/-! ## Indentation -/

/-- The spaces in front of a line. -/
def leadingSpaces (line : String) : Nat := (line.toList.takeWhile (· = ' ')).length

/-- A line without the spaces in front. -/
def withoutLeadingSpaces (line : String) : String :=
  String.ofList (line.toList.dropWhile (· = ' '))

/-- There are no spaces to take from a flush text. -/
theorem Flush.takeWhile {text : String} (h : Flush text) :
    text.toList.takeWhile (· = ' ') = [] := by
  unfold Flush at h
  cases hl : text.toList with
  | nil => rfl
  | cons c rest =>
    have hc : c ≠ ' ' := by simpa [hl] using h
    exact List.takeWhile_cons_of_neg (by simpa using hc)

namespace Options

variable (o : Options) (depth : Nat)

theorem toList_line (text : String) :
    (o.line depth text).toList
      = List.replicate (depth * o.indentWidth) ' ' ++ text.toList := by
  unfold line indent
  rw [String.toList_append, String.toList_ofList]

/-- **The indentation of a flush text is what it was given.** -/
theorem leadingSpaces_line {text : String} (h : Flush text) :
    leadingSpaces (o.line depth text) = depth * o.indentWidth := by
  unfold leadingSpaces
  rw [toList_line, List.takeWhile_append_of_pos (by simp), h.takeWhile, List.append_nil,
    List.length_replicate]

/-- A flush text comes back from behind its indentation. -/
theorem withoutLeadingSpaces_line {text : String} (h : Flush text) :
    withoutLeadingSpaces (o.line depth text) = text := by
  have hd : text.toList.dropWhile (· = ' ') = text.toList := by
    have hs := List.takeWhile_append_dropWhile (p := (· = ' ')) (l := text.toList)
    rwa [h.takeWhile, List.nil_append] at hs
  unfold withoutLeadingSpaces
  rw [toList_line, List.dropWhile_append_of_pos (by simp), hd, String.ofList_toList]

end Options

end Offside
