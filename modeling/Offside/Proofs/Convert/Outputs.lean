import Offside.Convert
import Offside.Proofs.Path.FileName

/-!
# Where the text of an input goes

An input is accepted for its extension, and its text goes to the path with the
extension of the language, if no output is named. Two paths are compared by their
components. So an output is never an input that would be accepted
(`formatOf?_eq_none_of_isSame_defaultOutput`), and the outputs of two accepted inputs
are the same path only if the inputs are (`isSame_of_isSame_defaultOutput`).
-/

namespace Offside

/-- **Where the text of an input goes** if no output is named. -/
def defaultOutput (input : Path) : Path := input.withExtension python.extension

theorem resolve_none (input : Path) :
    Destination.resolve input none = .file (defaultOutput input) := rfl

theorem Path.isSame_iff {p q : Path} : p.isSame q = true ↔ p.components = q.components :=
  beq_iff_eq

/-- An input is accepted for its extension. -/
theorem formatOf?_isSome_iff {p : Path} :
    (formatOf? p).isSome = true ↔ p.extension? = some "json" := by
  have hjson : (formatOf? p).isSome = true ↔ p.extension?.getD "" = "json" := by
    unfold formatOf? parseTreeFormat
    split <;> simp_all
  rw [hjson]
  cases p.extension? with
  | none => exact iff_of_false (by decide) (by simp)
  | some ext => exact Option.some_inj.symm

/-- **What an accepted input and its output have in common**: all components but the
last. -/
theorem components_of_accepted {p : Path} (h : (formatOf? p).isSome = true) :
    ∃ around stem, stem ≠ "" ∧ p.components = around ++ [.name (stem ++ "." ++ "json")]
      ∧ ((defaultOutput p).components = around ++ [.name (stem ++ "." ++ "py")]
        ∨ stem = "." ∧ (defaultOutput p).components = around ++ [.parent]) :=
  Path.components_withExtension (formatOf?_isSome_iff.mp h) (by decide) (by decide)

/-- **An output is no input**: no path that is the same as the output of an accepted
input is accepted. -/
theorem formatOf?_eq_none_of_isSame_defaultOutput {a b : Path}
    (ha : (formatOf? a).isSome = true) (h : (defaultOutput a).isSame b = true) :
    formatOf? b = none := by
  obtain ⟨around, stem, hstem, -, hout⟩ := components_of_accepted ha
  rw [Path.isSame_iff] at h
  rw [← Option.not_isSome_iff_eq_none]
  intro hb
  rcases hout with hout | ⟨-, hout⟩
  · have hext : "json" = "py" := Path.extension_unique (formatOf?_isSome_iff.mp hb)
      (h.symm.trans hout) hstem (by decide)
    exact absurd hext (by decide)
  · obtain ⟨around', stem', -, hb', -⟩ := components_of_accepted hb
    cases (List.append_inj' (hb'.symm.trans (h.symm.trans hout)) rfl).2

/-- **Different inputs have different outputs.** -/
theorem isSame_of_isSame_defaultOutput {a b : Path} (ha : (formatOf? a).isSome = true)
    (hb : (formatOf? b).isSome = true)
    (h : (defaultOutput a).isSame (defaultOutput b) = true) : a.isSame b = true := by
  obtain ⟨around, stem, hstem, ha', hout⟩ := components_of_accepted ha
  obtain ⟨around', stem', hstem', hb', hout'⟩ := components_of_accepted hb
  rw [Path.isSame_iff] at h ⊢
  have hsame : around = around' ∧ stem = stem' := by
    rcases hout with hout | ⟨rfl, hout⟩ <;> rcases hout' with hout' | ⟨rfl, hout'⟩
    · obtain ⟨haround, hlast⟩ := List.append_inj' (hout.symm.trans (h.trans hout')) rfl
      have hname : stem ++ "." ++ "py" = stem' ++ "." ++ "py" := by simpa using hlast
      have hcut := congrArg (fun name => (Path.splitExtension name).1) hname
      simp only [Path.splitExtension_append hstem (by decide : '.' ∉ "py".toList),
        Path.splitExtension_append hstem' (by decide : '.' ∉ "py".toList)] at hcut
      exact ⟨haround, hcut⟩
    · cases (List.append_inj' (hout.symm.trans (h.trans hout')) rfl).2
    · cases (List.append_inj' (hout.symm.trans (h.trans hout')) rfl).2
    · exact ⟨(List.append_inj' (hout.symm.trans (h.trans hout')) rfl).1, rfl⟩
  rw [ha', hb', hsame.1, hsame.2]

end Offside
