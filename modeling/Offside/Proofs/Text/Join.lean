import Offside.Text.Join

/-!
# Joins within joins

A layout is joined from texts that are joins themselves: a block is a join of
statements, and a statement with a body is a join of a header and a block. To
speak of its lines one wants a single join of all of them, and this module is
about when the two are the same text.

An equality of joins is too weak to argue with, since it says nothing of a
join the texts are only a part of. What is carried through instead is that
two lists of texts **join alike** (`JoinAlike`): each may take the other's
place between any two lists of texts. A join in place of what it joins is the
one fact that is needed of it (`JoinAlike.join`), and it has an exception
that shapes everything else: the join of no texts at all is the empty text,
which is not nothing.
-/

namespace Offside

variable {separator : String}

/-! ## Texts that join alike -/

/-- **Two lists of texts join alike** if one can take the place of the other
in every join. -/
def JoinAlike (separator : String) (texts others : List String) : Prop :=
  ∀ before after : List String,
    separator.intercalate (before ++ texts ++ after)
      = separator.intercalate (before ++ others ++ after)

namespace JoinAlike

variable {texts others texts' others' : List String}

theorem refl (texts : List String) : JoinAlike separator texts texts :=
  fun _ _ => rfl

/-- Joining alike is kept by what stands beside. -/
theorem append (h : JoinAlike separator texts others)
    (h' : JoinAlike separator texts' others') :
    JoinAlike separator (texts ++ texts') (others ++ others') := by
  intro before after
  have hl := h before (texts' ++ after)
  have hr := h' (before ++ others) after
  simp only [List.append_assoc] at hl hr ⊢
  rw [hl, hr]

/-- The same text in front of two lists that join alike. -/
theorem cons (text : String) (h : JoinAlike separator texts others) :
    JoinAlike separator (text :: texts) (text :: others) :=
  append (refl [text]) h

/-- What joins alike has the same join. -/
theorem intercalate_eq (h : JoinAlike separator texts others) :
    separator.intercalate texts = separator.intercalate others := by
  have h' := h [] []
  rwa [List.nil_append, List.append_nil, List.nil_append, List.append_nil] at h'

/-- **A join in place of what it joins**, which is not nothing. -/
theorem join (h : texts ≠ []) :
    JoinAlike separator [separator.intercalate texts] texts := by
  -- behind the texts first, where the join is in front
  have hafter : ∀ after : List String,
      separator.intercalate ([separator.intercalate texts] ++ after)
        = separator.intercalate (texts ++ after) := by
    intro after
    by_cases ha : after = []
    · rw [ha, List.append_nil, List.append_nil, String.intercalate_singleton]
    · rw [String.intercalate_append_of_ne_nil (by simp) ha,
        String.intercalate_append_of_ne_nil h ha, String.intercalate_singleton]
  intro before after
  by_cases hb : before = []
  · rw [hb, List.nil_append, List.nil_append]
    exact hafter after
  · rw [List.append_assoc, List.append_assoc,
      String.intercalate_append_of_ne_nil hb (by simp),
      String.intercalate_append_of_ne_nil hb (by simp [h]), hafter after]

end JoinAlike

/-! ## Joins that leave out empty texts -/

/-- A join of texts that are not empty is empty only if there are none. -/
theorem intercalate_ne_empty {texts : List String} (h : texts ≠ [])
    (hne : ∀ text ∈ texts, text ≠ "") : separator.intercalate texts ≠ "" := by
  obtain ⟨text, rest, rfl⟩ := List.exists_cons_of_ne_nil h
  intro he
  have htext : text ≠ "" := hne text List.mem_cons_self
  cases rest with
  | nil => exact htext (by rwa [String.intercalate_singleton] at he)
  | cons next rest =>
    rw [String.intercalate_cons_cons, String.append_eq_empty_iff,
      String.append_eq_empty_iff] at he
    exact htext he.1.1

/-- A join, one text at a time. -/
theorem joinNonEmpty_cons (separator text : String) (texts : List String) :
    joinNonEmpty separator (text :: texts)
      = if text = "" then joinNonEmpty separator texts
        else if joinNonEmpty separator texts = "" then text
        else text ++ separator ++ joinNonEmpty separator texts := by
  by_cases ht : text = ""
  · rw [if_pos ht, ht, joinNonEmpty_empty_cons]
  · rw [if_neg ht]
    unfold joinNonEmpty
    rw [List.filter_cons_of_pos (by simpa using ht)]
    cases hrest : texts.filter (· ≠ "") with
    | nil => rw [String.intercalate_nil, if_pos rfl, String.intercalate_singleton]
    | cons next rest =>
      have hne : separator.intercalate (next :: rest) ≠ "" := by
        refine intercalate_ne_empty (List.cons_ne_nil _ _) (fun t hmem => ?_)
        rw [← hrest] at hmem
        simpa using (List.mem_filter.mp hmem).2
      rw [if_neg hne, String.intercalate_cons_cons]

/-- **A join among texts of which the empty ones are left out** is as good as
what it joins: with nothing to join it is empty, and is left out. -/
theorem JoinAlike.filter_cons {text : String} {lines rest others : List String}
    (htext : text = separator.intercalate lines) (hne : ∀ line ∈ lines, line ≠ "")
    (h : JoinAlike separator (rest.filter (· ≠ "")) others) :
    JoinAlike separator ((text :: rest).filter (· ≠ "")) (lines ++ others) := by
  by_cases hl : lines = []
  · have he : text = "" := by rw [htext, hl, String.intercalate_nil]
    rw [hl, List.nil_append, List.filter_cons_of_neg (by simp [he])]
    exact h
  · have he : text ≠ "" := by
      rw [htext]
      exact intercalate_ne_empty hl hne
    rw [List.filter_cons_of_pos (by simp [he]), htext]
    exact append (join hl) h

end Offside
