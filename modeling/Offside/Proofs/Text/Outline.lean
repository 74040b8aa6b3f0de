import Mathlib.Data.List.Basic
import Mathlib.Data.List.TakeWhile

/-!
# Outlines

Lines that stand at different depths form an **outline**: each line goes
below the nearest line before it that is less deep. Nothing is asked of the
depths. A line may be several levels deeper than the one it goes below, and
lines below the same line may differ in depth, as long as none is deeper than
the one before it.

`nest` builds the outlines of a list of lines from the last line to the
first. A line that is put in front takes the outlines that follow it and are
deeper, up to the first one that is not. That this is the rule about the
nearest line before is `entries_nest`, and that it recovers any outlines from
the lines they are written out as is `nest_linesOf`.
-/

namespace Offside

/-- **An outline**: a line with the outlines below it. -/
inductive Outline (α : Type) where
  /-- A line and what is below it. -/
  | item (line : α) (below : List (Outline α))

variable {α : Type}

/-! ## Writing out an outline -/

namespace Outline

mutual

/-- **The lines of an outline** that stands at `depth`, each with its depth. -/
def lines (depth : Nat) : Outline α → List (Nat × α)
  | item line below => (depth, line) :: linesOf (depth + 1) below

/-- The lines of outlines that stand at `depth`. -/
def linesOf (depth : Nat) : List (Outline α) → List (Nat × α)
  | [] => []
  | outline :: outlines => outline.lines depth ++ linesOf depth outlines

end

mutual

/-- **The lines of an outline, each with the line it is below.** -/
def entries (above : Option α) : Outline α → List (Option α × α)
  | item line below => (above, line) :: entriesOf (some line) below

/-- The lines of outlines that are below the same line. -/
def entriesOf (above : Option α) : List (Outline α) → List (Option α × α)
  | [] => []
  | outline :: outlines => outline.entries above ++ entriesOf above outlines

end

theorem linesOf_append (depth : Nat) (outlines others : List (Outline α)) :
    linesOf depth (outlines ++ others) = linesOf depth outlines ++ linesOf depth others := by
  induction outlines with
  | nil => rfl
  | cons outline outlines ih =>
    rw [List.cons_append, linesOf, linesOf, ih, List.append_assoc]

/-- Outlines without lines are no outlines. -/
theorem linesOf_eq_nil (depth : Nat) {outlines : List (Outline α)} :
    linesOf depth outlines = [] ↔ outlines = [] := by
  cases outlines with
  | nil => exact iff_of_true rfl rfl
  | cons outline outlines =>
    obtain ⟨line, below⟩ := outline
    exact iff_of_false (List.cons_ne_nil _ _) (List.cons_ne_nil _ _)

end Outline

/-! ## Nesting lines -/

open Outline

/-- **A line in front of outlines**, each with its depth: the deeper ones that
follow it directly go below it. -/
def nestUnder (line : Nat × α) (outlines : List (Nat × Outline α)) :
    List (Nat × Outline α) :=
  (line.1, item line.2 ((outlines.takeWhile (line.1 < ·.1)).map Prod.snd))
    :: outlines.dropWhile (line.1 < ·.1)

/-- **The outlines of lines**, each line and each outline with its depth. -/
def nest (lines : List (Nat × α)) : List (Nat × Outline α) := lines.foldr nestUnder []

/-- Outlines of which the first is not deeper than a line stay where they are
when the line is put in front. -/
theorem split_of_not_deeper {depth : Nat} {outlines : List (Nat × Outline α)}
    (h : ∀ first ∈ outlines.head?, first.1 ≤ depth) :
    outlines.takeWhile (depth < ·.1) = [] ∧ outlines.dropWhile (depth < ·.1) = outlines := by
  cases outlines with
  | nil => exact ⟨rfl, rfl⟩
  | cons first rest =>
    have hf : ¬ depth < first.1 := Nat.not_lt.mpr (h first rfl)
    exact ⟨List.takeWhile_cons_of_neg (by simpa using hf),
      List.dropWhile_cons_of_neg (by simpa using hf)⟩

/-- Outlines one level deeper go below the line in front of them, up to the
first that is not deeper. -/
theorem nestUnder_append (depth : Nat) (line : α) (below : List (Outline α))
    {rest : List (Nat × Outline α)} (h : ∀ first ∈ rest.head?, first.1 ≤ depth) :
    nestUnder (depth, line) (below.map (Prod.mk (depth + 1)) ++ rest)
      = (depth, item line below) :: rest := by
  have hb : ∀ entry ∈ below.map (Prod.mk (depth + 1)), decide (depth < entry.1) = true := by
    intro entry hentry
    obtain ⟨outline, -, rfl⟩ := List.mem_map.mp hentry
    exact decide_eq_true (Nat.lt_succ_self depth)
  obtain ⟨htake, hdrop⟩ := split_of_not_deeper h
  rw [nestUnder, List.takeWhile_append_of_pos hb, List.dropWhile_append_of_pos hb, htake,
    hdrop, List.append_nil, List.map_map]
  exact congrArg (fun b => (depth, item line b) :: rest) (List.map_id' below)

mutual

/-- Nesting the lines of an outline in front of others gives the outline. -/
theorem foldr_nestUnder_lines : ∀ (outline : Outline α) (depth : Nat)
    (rest : List (Nat × Outline α)), (∀ first ∈ rest.head?, first.1 ≤ depth) →
      (outline.lines depth).foldr nestUnder rest = (depth, outline) :: rest
  | item line below, depth, rest, h => by
    have hb := foldr_nestUnder_linesOf below (depth + 1) rest
      (fun first hf => Nat.le_succ_of_le (h first hf))
    rw [lines, List.foldr_cons, hb]
    exact nestUnder_append depth line below h

/-- Nesting the lines of outlines in front of others gives these outlines. -/
theorem foldr_nestUnder_linesOf : ∀ (outlines : List (Outline α)) (depth : Nat)
    (rest : List (Nat × Outline α)), (∀ first ∈ rest.head?, first.1 ≤ depth) →
      (linesOf depth outlines).foldr nestUnder rest
        = outlines.map (Prod.mk depth) ++ rest
  | [], _, _, _ => rfl
  | outline :: outlines, depth, rest, h => by
    have hrest := foldr_nestUnder_linesOf outlines depth rest h
    rw [linesOf, List.foldr_append, hrest]
    refine foldr_nestUnder_lines outline depth _ (fun first hf => ?_)
    -- what follows is another of the outlines, or what followed them all
    cases outlines with
    | nil => exact h first hf
    | cons next outlines =>
      exact Option.some.inj hf ▸ Nat.le_refl depth

end

/-- **Outlines come back from their lines.** -/
theorem nest_linesOf (depth : Nat) (outlines : List (Outline α)) :
    nest (linesOf depth outlines) = outlines.map (Prod.mk depth) := by
  have h := foldr_nestUnder_linesOf outlines depth [] (by simp)
  rwa [List.append_nil] at h

/-! ## The nearest line before that is less deep -/

/-- **Lines, each with the nearest line before it that is less deep.** The
lines before the first one are given from the nearest to the farthest. -/
def withShallower (before : List (Nat × α)) : List (Nat × α) → List (Option α × α)
  | [] => []
  | line :: rest =>
    ((before.find? (·.1 < line.1)).map Prod.snd, line.2) :: withShallower (line :: before) rest

theorem entriesOf_eq_flatMap (above : Option α) (outlines : List (Outline α)) :
    entriesOf above outlines = outlines.flatMap (entries above) := by
  induction outlines with
  | nil => rfl
  | cons outline outlines ih => rw [entriesOf, List.flatMap_cons, ih]

/-- Behind an outline that is not deeper than a line there is none, if
outlines never get deeper. -/
theorem not_deeper_of_mem_dropWhile {depth : Nat} {outlines : List (Nat × Outline α)}
    (h : outlines.Pairwise (fun a b => b.1 ≤ a.1)) :
    ∀ entry ∈ outlines.dropWhile (depth < ·.1), entry.1 ≤ depth := by
  induction outlines with
  | nil => exact List.forall_mem_nil _
  | cons first rest ih =>
    rw [List.pairwise_cons] at h
    by_cases hf : depth < first.1
    · rw [List.dropWhile_cons_of_pos (by simpa using hf)]
      exact ih h.2
    · rw [List.dropWhile_cons_of_neg (by simpa using hf), List.forall_mem_cons]
      have hle : first.1 ≤ depth := Nat.not_lt.mp hf
      exact ⟨hle, fun entry hentry => Nat.le_trans (h.1 entry hentry) hle⟩

/-- **Outlines that are not below a line never get deeper**, since a deeper one
would be below the one before it. -/
theorem nest_pairwise (lines : List (Nat × α)) :
    (nest lines).Pairwise (fun a b => b.1 ≤ a.1) := by
  induction lines with
  | nil => exact List.Pairwise.nil
  | cons line rest ih =>
    refine List.pairwise_cons.mpr ⟨not_deeper_of_mem_dropWhile ih, ?_⟩
    exact ih.sublist (List.dropWhile_sublist _)

/-- Nested lines after some others: what is on top is below the nearest of the
others that is less deep. -/
theorem withShallower_eq_flatMap_nest (lines : List (Nat × α)) : ∀ before : List (Nat × α),
    withShallower before lines
      = (nest lines).flatMap
          (fun entry => entry.2.entries ((before.find? (·.1 < entry.1)).map Prod.snd)) := by
  induction lines with
  | nil => exact fun _ => rfl
  | cons line rest ih =>
    intro before
    have hdeep : ∀ entry ∈ (nest rest).takeWhile (line.1 < ·.1),
        entry.2.entries (((line :: before).find? (·.1 < entry.1)).map Prod.snd)
          = entry.2.entries (some line.2) := by
      intro entry hentry
      have hlt : line.1 < entry.1 := by simpa using List.mem_takeWhile_imp hentry
      rw [List.find?_cons_of_pos (by simpa using hlt)]
      rfl
    have hflat : ∀ entry ∈ (nest rest).dropWhile (line.1 < ·.1),
        entry.2.entries (((line :: before).find? (·.1 < entry.1)).map Prod.snd)
          = entry.2.entries ((before.find? (·.1 < entry.1)).map Prod.snd) := by
      intro entry hentry
      have hle := not_deeper_of_mem_dropWhile (nest_pairwise rest) entry hentry
      rw [List.find?_cons_of_neg (by simpa using hle)]
    have hsplit : (nest rest).takeWhile (line.1 < ·.1) ++ (nest rest).dropWhile (line.1 < ·.1)
        = nest rest := List.takeWhile_append_dropWhile
    show _ :: withShallower (line :: before) rest = List.flatMap _ (nestUnder line (nest rest))
    rw [ih, nestUnder, List.flatMap_cons, entries, entriesOf_eq_flatMap, List.flatMap_map,
      ← List.flatMap_congr hdeep, ← List.flatMap_congr hflat, List.cons_append,
      ← List.flatMap_append, hsplit]

/-- **Nesting puts each line below the nearest line before it that is less
deep**, and keeps the lines in order. -/
theorem entries_nest (lines : List (Nat × α)) :
    entriesOf none ((nest lines).map Prod.snd) = withShallower [] lines := by
  rw [withShallower_eq_flatMap_nest, entriesOf_eq_flatMap, List.flatMap_map]
  rfl

end Offside
