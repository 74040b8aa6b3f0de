import Mathlib.Data.List.Induction
import Offside.Config.Basic

/-!
# The last layer that sets an option wins

Layers are merged in order, onto the layer that sets nothing. For each option the last
layer that sets it wins (`lastSet`), and the layers that leave it alone have no say,
wherever they stand. So the options under a sequence of layers are told by the sequence,
option by option (`toOptions_mergeAll`).

What is asked of an option for this is said once (`IsSetting`) and holds of all four of
them. Layers can be merged in groups first, since what is merged is a sequence and
nothing else (`mergeAll_flatten`).
-/

namespace Offside

namespace Layer

variable {α : Type} {option : Layer → Option α}

/-- **Layers merged in order**, onto the layer that sets nothing. -/
def mergeAll (layers : List Layer) : Layer := layers.foldl merge unset

@[simp] theorem mergeAll_nil : mergeAll [] = unset := rfl

theorem mergeAll_append_singleton (layers : List Layer) (l : Layer) :
    mergeAll (layers ++ [l]) = (mergeAll layers).merge l := List.foldl_append

@[simp] theorem mergeAll_singleton (l : Layer) : mergeAll [l] = l := unset_merge l

/-- **Layers after layers** are a layer after a layer. -/
theorem mergeAll_append (layers others : List Layer) :
    mergeAll (layers ++ others) = (mergeAll layers).merge (mergeAll others) := by
  induction others using List.reverseRecOn with
  | nil => rw [List.append_nil, mergeAll_nil, merge_unset]
  | append_singleton others l ih =>
    rw [← List.append_assoc, mergeAll_append_singleton, ih, mergeAll_append_singleton,
      merge_assoc]

theorem mergeAll_cons (l : Layer) (layers : List Layer) :
    mergeAll (l :: layers) = l.merge (mergeAll layers) := by
  rw [← List.singleton_append, mergeAll_append, mergeAll_singleton]

/-- **Groups of layers can be merged first.** -/
theorem mergeAll_flatten (groups : List (List Layer)) :
    mergeAll groups.flatten = mergeAll (groups.map mergeAll) := by
  induction groups with
  | nil => rfl
  | cons group groups ih =>
    rw [List.flatten_cons, mergeAll_append, ih, List.map_cons, mergeAll_cons]

/-! ## Option by option -/

/-- **What the last layer that sets an option sets it to**, if one of the layers does. -/
def lastSet (option : Layer → Option α) (layers : List Layer) : Option α :=
  layers.reverse.findSome? option

theorem lastSet_append_singleton (option : Layer → Option α) (layers : List Layer) (l : Layer) :
    lastSet option (layers ++ [l]) = (option l).or (lastSet option layers) := by
  rw [lastSet, List.reverse_append, List.reverse_singleton, List.singleton_append,
    List.findSome?_cons]
  cases option l <;> rfl

/-- **An option that layers set**: the later of two layers wins, if it sets the option. -/
structure IsSetting (option : Layer → Option α) : Prop where
  /-- The layer that sets nothing does not set it. -/
  unset_eq : option unset = none
  /-- The later layer wins. -/
  merge_eq (earlier later : Layer) :
    option (earlier.merge later) = (option later).or (option earlier)

theorem isSetting_indentWidth : IsSetting indentWidth := ⟨rfl, fun _ _ => rfl⟩

theorem isSetting_lineEnding : IsSetting lineEnding := ⟨rfl, fun _ _ => rfl⟩

theorem isSetting_passEmptyBodies : IsSetting passEmptyBodies := ⟨rfl, fun _ _ => rfl⟩

theorem isSetting_callArguments : IsSetting callArguments := ⟨rfl, fun _ _ => rfl⟩

/-- **The last layer that sets an option wins.** -/
theorem IsSetting.mergeAll_eq (h : IsSetting option) (layers : List Layer) :
    option (mergeAll layers) = lastSet option layers := by
  induction layers using List.reverseRecOn with
  | nil => exact h.unset_eq
  | append_singleton layers l ih =>
    rw [mergeAll_append_singleton, h.merge_eq, ih, lastSet_append_singleton]

/-- **The options under a sequence of layers**, option by option. -/
theorem toOptions_mergeAll (layers : List Layer) :
    (mergeAll layers).toOptions = {
      indentWidth := (lastSet indentWidth layers).getD 4
      lineEnding := (lastSet lineEnding layers).getD .crlf
      passEmptyBodies := (lastSet passEmptyBodies layers).getD true
      callArguments := (lastSet callArguments layers).getD .literals } := by
  rw [toOptions, isSetting_indentWidth.mergeAll_eq, isSetting_lineEnding.mergeAll_eq,
    isSetting_passEmptyBodies.mergeAll_eq, isSetting_callArguments.mergeAll_eq]

end Layer

end Offside
