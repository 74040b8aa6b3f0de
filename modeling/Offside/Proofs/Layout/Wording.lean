import Mathlib.Data.List.Forall2
import Offside.Proofs.Layout.CallSites
import Offside.Proofs.Layout.Rows

/-!
# Lines before they are written out

A line of a layout holds texts that every layout writes, and lists of arguments, of
which a layout writes those that it keeps. A **wording** (`Wording`) is a line, or a
part of one, that has been put together from these and not been written out, and it is
a wording of a text (`Wording.Words`) if writing it out gives that text.

To put parts together one has to know which of them come to a text. A wording tells
without being written out (`Wording.isSolid`): its fixed texts decide, since a call has
a parenthesis whatever it keeps. So the wordings of a node are the same for all
layouts.

The lists of arguments in a wording are those of the calls that a layout renders if it
keeps literals alone (`Node.calls_wording`). Calls within arguments come in only where
arguments are written out.
-/

namespace Offside

variable {mode : CallArguments}

/-! ## Wordings -/

/-- **A piece of a line.** -/
inductive Piece where
  /-- A text that every layout writes. -/
  | fixed (text : String)
  /-- The arguments of a call of `callee`, of which a layout writes those that it
  keeps. -/
  | arguments (callee : String) (args : List Node)

/-- The text of a piece. -/
def Piece.text (mode : CallArguments) : Piece → String
  | fixed text => text
  | arguments _ args => joinNonEmpty ", " (keptTexts mode args)

/-- Whether a piece has a text in every layout. -/
def Piece.isSolid : Piece → Bool
  | fixed text => text ≠ ""
  | arguments _ _ => false

/-- **A line, or a part of one, before it is written out.** -/
abbrev Wording := List Piece

namespace Wording

/-- **The text of a wording.** -/
def text (mode : CallArguments) (w : Wording) : String := String.join (w.map (Piece.text mode))

/-- **Whether a wording has a text** in every layout. -/
def isSolid (w : Wording) : Bool := w.any Piece.isSolid

/-- Wordings with a separator between those that have a text. -/
def joined (separator : String) : List Wording → Wording
  | [] => []
  | w :: ws =>
    if w.isSolid then
      if (joined separator ws).isSolid then w ++ .fixed separator :: joined separator ws else w
    else joined separator ws

@[simp] theorem text_nil : text mode [] = "" := rfl

@[simp] theorem text_cons (piece : Piece) (w : Wording) :
    text mode (piece :: w) = piece.text mode ++ text mode w := by
  rw [text, List.map_cons, String.join_cons, text]

@[simp] theorem text_append (w v : Wording) :
    text mode (w ++ v) = text mode w ++ text mode v := by
  rw [text, List.map_append, String.join_append, text, text]

theorem isSolid_cons (piece : Piece) (w : Wording) :
    isSolid (piece :: w) = (piece.isSolid || isSolid w) := List.any_cons

theorem isSolid_append (w v : Wording) : isSolid (w ++ v) = (isSolid w || isSolid v) :=
  List.any_append

/-- What has a text in every layout has one in this layout. -/
theorem text_ne_empty {w : Wording} (h : w.isSolid = true) : w.text mode ≠ "" := by
  induction w with
  | nil => cases h
  | cons piece w ih =>
    rw [isSolid_cons, Bool.or_eq_true] at h
    rw [text_cons, ne_eq, String.append_eq_empty_iff]
    rintro ⟨hpiece, hw⟩
    rcases h with h | h
    · cases piece with
      | fixed text => exact of_decide_eq_true h hpiece
      | arguments callee args => cases h
    · exact ih h hw

/-- **A wording of a text**: it is written out as that text in this layout, and has a
text in every layout unless that text is empty. -/
structure Words (mode : CallArguments) (w : Wording) (text : String) : Prop where
  /-- It is written out as the text. -/
  text_eq : w.text mode = text
  /-- Only the empty text has a wording that might come to nothing. -/
  isSolid_of_ne : text ≠ "" → w.isSolid = true

namespace Words

variable {w v : Wording} {text more : String}

theorem isSolid_iff (h : Words mode w text) : w.isSolid = true ↔ text ≠ "" :=
  ⟨fun hs => h.text_eq ▸ text_ne_empty hs, h.isSolid_of_ne⟩

theorem fixed (text : String) : Words mode [.fixed text] text :=
  ⟨by rw [text_cons, text_nil, String.append_empty, Piece.text],
    fun h => by rw [isSolid_cons, Piece.isSolid, decide_eq_true h, Bool.true_or]⟩

theorem append (h : Words mode w text) (h' : Words mode v more) :
    Words mode (w ++ v) (text ++ more) := by
  refine ⟨by rw [text_append, h.text_eq, h'.text_eq], fun hne => ?_⟩
  rw [isSolid_append, Bool.or_eq_true, h.isSolid_iff, h'.isSolid_iff]
  exact Decidable.not_and_iff_not_or_not.mp (mt String.append_eq_empty_iff.mpr hne)

/-- A fixed text in front. -/
theorem cons_fixed (text : String) (h : Words mode w more) :
    Words mode (.fixed text :: w) (text ++ more) :=
  (fixed text).append h

/-- **Wordings of texts join as the texts do.** -/
theorem joined {separator : String} {ws : List Wording} {texts : List String}
    (h : List.Forall₂ (Words mode) ws texts) :
    Words mode (joined separator ws) (joinNonEmpty separator texts) := by
  induction h with
  | nil => exact ⟨rfl, fun h => absurd rfl h⟩
  | @cons w text ws texts hw _ ih =>
    rw [joinNonEmpty_cons, Wording.joined]
    by_cases ht : text = ""
    · rw [if_pos ht, if_neg (by rw [hw.isSolid_iff]; exact not_not.mpr ht)]
      exact ih
    · rw [if_neg ht, if_pos (hw.isSolid_of_ne ht)]
      by_cases hr : joinNonEmpty separator texts = ""
      · rw [if_pos hr, if_neg (by rw [ih.isSolid_iff]; exact not_not.mpr hr)]
        exact hw
      · rw [if_neg hr, if_pos (ih.isSolid_of_ne hr), String.append_assoc]
        exact hw.append (ih.cons_fixed separator)

end Words

end Wording

mutual

/-- **The wording of an inline node.** A node that is not inline has none. -/
def Node.wording : Node → Wording
  | .expression parts => .joined " " (wordingsOf parts)
  | .operator tokens | .literal tokens => [.fixed (joinNonEmpty " " tokens)]
  | .declaration d => [.fixed d.name]
  | .call name args => [.fixed (name ++ "("), .arguments name args, .fixed ")"]
  | _ => []

/-- The wordings of inline nodes. -/
def wordingsOf : List Node → List Wording
  | [] => []
  | node :: nodes => node.wording :: wordingsOf nodes

end

/-- The wording of an expression. -/
def expressionWording (parts : Expression) : Wording := .joined " " (wordingsOf parts)

/-- The wording of the header of a clause or a loop, up to its colon. -/
def conditionWording (keyword : String) (condition : Expression) : Wording :=
  .fixed keyword :: expressionWording condition

/-- **The wording of a simple statement**, without its indentation. -/
def Node.phraseWording : Node → Wording
  | .assignment target op value =>
    .fixed (target.boundName ++ " " ++ op ++ " ") :: expressionWording value
  | .returnExpr value =>
    if (expressionWording value).isSolid then .fixed "return " :: expressionWording value
    else [.fixed "return"]
  | node => node.wording

open Wording

/-- A call has a name or a parenthesis, whatever it keeps. -/
theorem isSolid_wording_call (name : String) (args : List Node) :
    (Node.call name args).wording.isSolid = true := by
  have hopen : name ++ "(" ≠ "" := by simp
  rw [Node.wording, isSolid_cons, Piece.isSolid, decide_eq_true hopen, Bool.true_or]

mutual

/-- **An inline node is worded as its text.** -/
theorem Node.words_wording : ∀ node : Node, Words mode node.wording (node.inlineText mode)
  | .expression parts => .joined (words_wordingsOf parts)
  | .operator _ | .literal _ | .declaration _ => .fixed _
  | .call name args => by
    refine ⟨?_, fun _ => isSolid_wording_call name args⟩
    simp only [Node.wording, Node.inlineText, text_cons, text_nil, Piece.text,
      String.append_empty, String.append_assoc]
  | .sequence _ _ | .wrapper _ _ | .assignment _ _ _ | .conditional _ _ _ | .whileLoop _ _
  | .method _ _ _ _ | .returnExpr _ | .token _ => ⟨rfl, fun h => absurd rfl h⟩

/-- Inline nodes are worded as their texts, one by one. -/
theorem words_wordingsOf : ∀ nodes : List Node,
    List.Forall₂ (Words mode) (wordingsOf nodes) (inlineTexts mode nodes)
  | [] => .nil
  | node :: nodes => .cons node.words_wording (words_wordingsOf nodes)

end

theorem words_expressionWording (parts : Expression) :
    Words mode (expressionWording parts) (expressionText mode parts) :=
  .joined (words_wordingsOf parts)

theorem words_conditionWording (keyword : String) (condition : Expression) :
    Words mode (conditionWording keyword condition) (conditionHeader mode keyword condition) :=
  (words_expressionWording condition).cons_fixed keyword

/-- **A simple statement is worded as its text.** -/
theorem Node.words_phraseWording (node : Node) :
    Words mode node.phraseWording (node.phraseText mode) := by
  cases node with
  | assignment target op value => exact (words_expressionWording value).cons_fixed _
  | returnExpr value =>
    have hvalue : Words mode (expressionWording value) (expressionText mode value) :=
      words_expressionWording value
    rw [phraseWording, phraseText]
    by_cases he : expressionText mode value = ""
    · rw [if_pos he, if_neg (by rw [hvalue.isSolid_iff]; exact not_not.mpr he)]
      exact .fixed "return"
    · rw [if_neg he, if_pos (hvalue.isSolid_of_ne he)]
      exact hvalue.cons_fixed "return "
  | _ => exact Node.words_wording _

/-! ## The calls in a wording -/

/-- The call that a piece holds the arguments of. -/
def Piece.callee? : Piece → Option String
  | fixed _ => none
  | arguments callee _ => some callee

namespace Wording

/-- **The calls in a wording**, from left to right. -/
def callees (w : Wording) : List String := w.filterMap Piece.callee?

/-- **A wording with these calls** in it. -/
structure Calls (w : Wording) (names : List String) : Prop where
  /-- These calls are in it. -/
  callees_eq : w.callees = names
  /-- The arguments that they might keep are inline. -/
  inline_of_mem : ∀ callee args, .arguments callee args ∈ w →
    keptAreInline .expressions args = true
  /-- Where there is a call there is a text. -/
  isSolid_of_ne : names ≠ [] → w.isSolid = true

namespace Calls

variable {w v : Wording} {names others : List String}

theorem nil : Calls [] [] := ⟨rfl, fun _ _ h => absurd h List.not_mem_nil, fun h => absurd rfl h⟩

theorem append (h : Calls w names) (h' : Calls v others) : Calls (w ++ v) (names ++ others) := by
  refine ⟨?_, fun callee args hmem => ?_, fun hne => ?_⟩
  · rw [callees, List.filterMap_append]
    exact congrArg₂ (· ++ ·) h.callees_eq h'.callees_eq
  · exact (List.mem_append.mp hmem).elim (h.inline_of_mem callee args)
      (h'.inline_of_mem callee args)
  · rw [isSolid_append, Bool.or_eq_true]
    exact (Decidable.not_and_iff_not_or_not.mp (mt List.append_eq_nil_iff.mpr hne)).imp
      h.isSolid_of_ne h'.isSolid_of_ne

/-- A fixed text in front. -/
theorem cons_fixed (text : String) (h : Calls w names) : Calls (.fixed text :: w) names := by
  refine ⟨h.callees_eq, fun callee args hmem => ?_, fun hne => ?_⟩
  · exact h.inline_of_mem callee args ((List.mem_cons.mp hmem).resolve_left Piece.noConfusion)
  · rw [isSolid_cons, h.isSolid_of_ne hne, Bool.or_true]

theorem fixed (text : String) : Calls [.fixed text] [] := nil.cons_fixed text

theorem eq_nil_of_not_isSolid (h : Calls w names) (hs : ¬ w.isSolid = true) : names = [] :=
  Decidable.not_not.mp (mt h.isSolid_of_ne hs)

/-- **Joined wordings have the calls of each.** What is left out has none. -/
theorem joined {separator : String} {ws : List Wording} {namesOf : List (List String)}
    (h : List.Forall₂ Calls ws namesOf) : Calls (joined separator ws) namesOf.flatten := by
  induction h with
  | nil => exact nil
  | @cons w names ws namesOf hw _ ih =>
    rw [Wording.joined, List.flatten_cons]
    by_cases hs : w.isSolid = true
    · rw [if_pos hs]
      by_cases hr : (Wording.joined separator ws).isSolid = true
      · rw [if_pos hr]
        exact hw.append (ih.cons_fixed separator)
      · rw [if_neg hr, ih.eq_nil_of_not_isSolid hr, List.append_nil]
        exact hw
    · rw [if_neg hs, hw.eq_nil_of_not_isSolid hs, List.nil_append]
      exact ih

end Calls

end Wording

/-- **The calls that are rendered** at call sites, in order. -/
def renderedCallees (mode : CallArguments) (sites : List CallSite) : List String :=
  (sites.filter fun s => s.argument?.isNone && s.isRendered mode).map (·.callee)

@[simp] theorem renderedCallees_append (sites others : List CallSite) :
    renderedCallees mode (sites ++ others)
      = renderedCallees mode sites ++ renderedCallees mode others := by
  rw [renderedCallees, List.filter_append, List.map_append]
  rfl

/-- **Nothing is rendered within what is left out.** -/
theorem renderedCallees_inside {e : Enclosure} (h : e.isRendered mode = false)
    (sites : List CallSite) : renderedCallees mode (sites.map (.inside e)) = [] := by
  rw [renderedCallees, List.map_eq_nil_iff, List.filter_eq_nil_iff]
  intro s hs
  obtain ⟨inner, -, rfl⟩ := List.mem_map.mp hs
  simp [CallSite.isRendered, CallSite.inside, h]

/-- **No call within arguments is rendered** if literals alone are kept. -/
theorem renderedCallees_argumentSites (callee : String) (args : List Node) :
    renderedCallees .literals (argumentSites callee args) = [] := by
  induction args with
  | nil => rfl
  | cons arg args ih =>
    have hargument : renderedCallees .literals
        (⟨[], callee, some arg⟩ :: arg.callSites.map (.inside (.argument arg))) = [] := by
      show renderedCallees .literals (arg.callSites.map (.inside (.argument arg))) = []
      cases arg with
      | literal _ | token _ => rfl
      | _ => exact renderedCallees_inside rfl _
    rw [argumentSites, renderedCallees_append, hargument, ih, List.append_nil]

theorem renderedCallees_callSitesOf (nodes : List Node) :
    renderedCallees mode (callSitesOf nodes)
      = (nodes.map fun node => renderedCallees mode node.callSites).flatten := by
  induction nodes with
  | nil => rfl
  | cons node nodes ih =>
    rw [callSitesOf, renderedCallees_append, ih, List.map_cons, List.flatten_cons]

mutual

/-- **The calls in the wording of an inline node** are those that are rendered if
literals alone are kept. -/
theorem Node.calls_wording : ∀ node : Node, node.isInline .expressions = true →
    Calls node.wording (renderedCallees .literals node.callSites)
  | .expression parts, h => calls_expressionWording parts h
  | .operator _, _ | .literal _, _ | .declaration _, _ => .fixed _
  | .call name args, h => by
    have hsites : renderedCallees .literals (Node.call name args).callSites
        = name :: renderedCallees .literals (argumentSites name args) := rfl
    rw [hsites, renderedCallees_argumentSites]
    refine ⟨rfl, fun callee others hmem => ?_, fun _ => isSolid_wording_call name args⟩
    obtain ⟨-, rfl⟩ : callee = name ∧ others = args := by simpa [Node.wording] using hmem
    exact h
  | .token _, _ => .nil

/-- The calls in the wording of an expression. -/
theorem calls_expressionWording (parts : Expression) (h : areInline .expressions parts = true) :
    Calls (expressionWording parts) (renderedCallees .literals (callSitesOf parts)) := by
  rw [renderedCallees_callSitesOf]
  exact .joined (calls_wordingsOf parts h)

theorem calls_wordingsOf : ∀ nodes : List Node, areInline .expressions nodes = true →
    List.Forall₂ Calls (wordingsOf nodes)
      (nodes.map fun node => renderedCallees .literals node.callSites)
  | [], _ => .nil
  | node :: nodes, h => by
    rw [areInline, Bool.and_eq_true] at h
    exact .cons (node.calls_wording h.1) (calls_wordingsOf nodes h.2)

end

/-- The calls in the wording of the header of a clause or a loop. -/
theorem calls_conditionWording (keyword : String) {condition : Expression}
    (h : (Node.expression condition).readsInline .expressions = true) :
    Calls (conditionWording keyword condition)
      (renderedCallees .literals (callSitesOf condition)) :=
  (calls_expressionWording condition h).cons_fixed keyword

/-- The calls in the wording of a `return`. -/
theorem calls_phraseWording_returnExpr {value : Expression}
    (h : (Node.returnExpr value).readsInline .expressions = true) :
    Calls (Node.returnExpr value).phraseWording
      (renderedCallees .literals (callSitesOf value)) := by
  have hvalue := calls_expressionWording value h
  rw [Node.phraseWording]
  by_cases hs : (expressionWording value).isSolid = true
  · rw [if_pos hs]
    exact hvalue.cons_fixed "return "
  · rw [if_neg hs, hvalue.eq_nil_of_not_isSolid hs]
    exact .fixed "return"

end Offside
