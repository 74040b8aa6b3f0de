import Offside.Proofs.Layout.Rows
import Offside.Proofs.Text.Outline

/-!
# The outline of a program

What a program means to say by its indentation is its **outline**: a simple
statement is a line with nothing below it, and a header is a line with its
body below. Wrappers and sequences leave no trace, and the headers of an
`elif` and an `else` stand beside the `if`, not below it.

`readOutlines` takes a text apart by indentation alone. It knows the line
ending and the width of a level, and nothing of the program the text was made
from. `readOutlines_render` says that it finds the outline of the program,
for every program whose strings cannot be taken for indentation or for line
endings. The proof goes through the rows: they are the lines of the outline
(`linesOf_outlines`), and outlines come back from their lines.
-/

namespace Offside

variable {mode : CallArguments}

/-! ## Outlines of programs -/

/-- A simple statement is a line of the outline, if it has a text. -/
def simpleOutlines (text : String) : List (Outline String) :=
  if text = "" then [] else [.item text []]

/-- **What is below a header**, with `pass` in place of nothing if that is
wanted. -/
def suiteOutlines (pass : Bool) (outlines : List (Outline String)) :
    List (Outline String) :=
  if outlines.isEmpty && pass then [.item "pass" []] else outlines

mutual

/-- **The outline of a node in statement position.** -/
def Node.outlines (pass : Bool) (mode : CallArguments) : Node → List (Outline String)
  | .sequence _ nodes => outlinesOf pass mode nodes
  | .wrapper _ inner => inner.outlines pass mode
  | .conditional condition body next =>
    .item (conditionHeader mode "if " condition ++ ":") (body.outlines pass mode)
      :: next.outlines pass mode
  | .whileLoop condition body =>
    [.item (conditionHeader mode "while " condition ++ ":") (body.outlines pass mode)]
  | .method _ name args body =>
    [.item (methodHeader name args ++ ":") (suiteOutlines pass (outlinesOf pass mode body))]
  | simple => simpleOutlines (simple.phraseText mode)

/-- The outlines of nodes in the same position. -/
def outlinesOf (pass : Bool) (mode : CallArguments) : List Node → List (Outline String)
  | [] => []
  | node :: nodes => node.outlines pass mode ++ outlinesOf pass mode nodes

/-- The outlines below a header. -/
def Body.outlines (pass : Bool) (mode : CallArguments) : Body → List (Outline String)
  | .absent => suiteOutlines pass []
  | .block nodes => suiteOutlines pass (outlinesOf pass mode nodes)
  | .single node => suiteOutlines pass (node.outlines pass mode)

/-- **The outlines of the clauses after an `if`**, beside it. -/
def Continuation.outlines (pass : Bool) (mode : CallArguments) :
    Continuation → List (Outline String)
  | .done => []
  | .elif condition body next =>
    .item (conditionHeader mode "elif " condition ++ ":") (body.outlines pass mode)
      :: next.outlines pass mode
  | .otherwise body => [.item ("else" ++ ":") (body.outlines pass mode)]

end

/-- **The outline of a program.** -/
def Program.outlines (pass : Bool) (mode : CallArguments) (p : Program) :
    List (Outline String) :=
  outlinesOf pass mode p.body

/-! ## The lines of an outline are rows -/

open Outline

/-- Rows with their depth, counted from the top. -/
def Row.lines (depth : Nat) (rows : List Row) : List (Nat × String) :=
  rows.map fun row => (depth + row.depth, row.text)

namespace Row

theorem lines_append (depth : Nat) (rows others : List Row) :
    lines depth (rows ++ others) = lines depth rows ++ lines depth others :=
  List.map_append

theorem lines_deeper (depth : Nat) (rows : List Row) :
    lines depth (rows.map deeper) = lines (depth + 1) rows := by
  unfold lines
  rw [List.map_map]
  refine List.map_congr_left (fun row _ => ?_)
  show (depth + (row.depth + 1), row.text) = (depth + 1 + row.depth, row.text)
  rw [Nat.add_assoc, Nat.add_comm 1]

end Row

theorem linesOf_simpleOutlines (depth : Nat) (text : String) :
    linesOf depth (simpleOutlines text) = Row.lines depth (simpleRows text) := by
  unfold simpleOutlines simpleRows
  by_cases h : text = ""
  · rw [if_pos h, dif_pos h]
    rfl
  · rw [if_neg h, dif_neg h]
    rfl

/-- What is below a header, and the rows of the body. -/
theorem linesOf_suiteOutlines (depth : Nat) (pass : Bool) {outlines : List (Outline String)}
    {rows : List Row} (h : linesOf (depth + 1) outlines = Row.lines (depth + 1) rows) :
    linesOf (depth + 1) (suiteOutlines pass outlines) = Row.lines depth (suiteRows pass rows) := by
  unfold suiteOutlines suiteRows
  have hempty : outlines.isEmpty = rows.isEmpty := by
    rw [Bool.eq_iff_iff, List.isEmpty_iff, List.isEmpty_iff,
      ← linesOf_eq_nil (depth + 1), h]
    exact List.map_eq_nil_iff
  rw [Row.lines_deeper, hempty]
  split
  · rfl
  · exact h

mutual

/-- **The lines of the outline of a node are its rows.** -/
theorem linesOf_outlines (pass : Bool) : ∀ (node : Node) (depth : Nat),
    linesOf depth (node.outlines pass mode) = Row.lines depth (node.rows pass mode)
  | .sequence _ nodes, depth => linesOf_outlinesOf pass nodes depth
  | .wrapper _ inner, depth => linesOf_outlines pass inner depth
  | .conditional condition body next, depth => by
    rw [Node.outlines, linesOf, Outline.lines, linesOf_bodyOutlines pass body depth,
      linesOf_continuationOutlines pass next depth, Node.rows, Row.lines_append]
    rfl
  | .whileLoop condition body, depth => by
    rw [Node.outlines, linesOf, Outline.lines, linesOf_bodyOutlines pass body depth,
      linesOf, List.append_nil, Node.rows]
    rfl
  | .method _ name args body, depth => by
    rw [Node.outlines, linesOf, Outline.lines,
      linesOf_suiteOutlines depth pass (linesOf_outlinesOf pass body (depth + 1)),
      linesOf, List.append_nil, Node.rows]
    rfl
  | .declaration _, depth => linesOf_simpleOutlines depth _
  | .assignment _ _ _, depth => linesOf_simpleOutlines depth _
  | .expression _, depth => linesOf_simpleOutlines depth _
  | .operator _, depth => linesOf_simpleOutlines depth _
  | .literal _, depth => linesOf_simpleOutlines depth _
  | .returnExpr _, depth => linesOf_simpleOutlines depth _
  | .call _ _, depth => linesOf_simpleOutlines depth _
  | .token _, depth => linesOf_simpleOutlines depth _

/-- The lines of the outlines of nodes are their rows. -/
theorem linesOf_outlinesOf (pass : Bool) : ∀ (nodes : List Node) (depth : Nat),
    linesOf depth (outlinesOf pass mode nodes) = Row.lines depth (rowsOf pass mode nodes)
  | [], _ => rfl
  | node :: nodes, depth => by
    rw [outlinesOf, linesOf_append, linesOf_outlines pass node depth,
      linesOf_outlinesOf pass nodes depth, rowsOf, Row.lines_append]

/-- The lines below a header are the rows of the body. -/
theorem linesOf_bodyOutlines (pass : Bool) : ∀ (body : Body) (depth : Nat),
    linesOf (depth + 1) (body.outlines pass mode) = Row.lines depth (body.rows pass mode)
  | .absent, depth => linesOf_suiteOutlines depth pass rfl
  | .block nodes, depth => linesOf_suiteOutlines depth pass (linesOf_outlinesOf pass nodes _)
  | .single node, depth => linesOf_suiteOutlines depth pass (linesOf_outlines pass node _)

/-- The lines of the clauses after an `if` are their rows. -/
theorem linesOf_continuationOutlines (pass : Bool) : ∀ (next : Continuation) (depth : Nat),
    linesOf depth (next.outlines pass mode) = Row.lines depth (next.rows pass mode)
  | .done, _ => rfl
  | .elif condition body next, depth => by
    rw [Continuation.outlines, linesOf, Outline.lines, linesOf_bodyOutlines pass body depth,
      linesOf_continuationOutlines pass next depth, Continuation.rows, Row.lines_append]
    rfl
  | .otherwise body, depth => by
    rw [Continuation.outlines, linesOf, Outline.lines, linesOf_bodyOutlines pass body depth,
      linesOf, List.append_nil, Continuation.rows]
    rfl

end

/-! ## Reading a text by its indentation -/

/-- A line as its depth, in levels of indentation, and what is behind them. -/
def Options.measure (o : Options) (line : String) : Nat × String :=
  (leadingSpaces line / o.indentWidth, withoutLeadingSpaces line)

/-- **The outlines that a text shows by its indentation**: each of its lines
goes below the nearest line before it that is less deep. -/
def readOutlines (o : Options) (text : String) : List (Outline String) :=
  (nest ((o.lineEnding.lines text).map o.measure)).map Prod.snd

namespace Options

variable (o : Options)

/-- **The lines of rows laid out** are the rows, each behind its indentation. -/
theorem lines_stack_lay (depth : Nat) {rows : List Row}
    (h : ∀ row ∈ rows, Unbroken row.text) :
    o.lineEnding.lines (o.stack (o.lay depth rows)) = o.lay depth rows := by
  refine o.lineEnding.lines_intercalate (fun line hline => ?_) (o.ne_empty_of_mem_lay depth rows)
  obtain ⟨row, hrow, rfl⟩ := List.mem_map.mp hline
  exact (h row hrow).line o _

/-- A flush row is measured as what it was. -/
theorem measure_line (hwidth : 1 ≤ o.indentWidth) (depth : Nat) {text : String}
    (h : Flush text) : o.measure (o.line depth text) = (depth, text) := by
  unfold measure
  rw [o.leadingSpaces_line depth h, o.withoutLeadingSpaces_line depth h,
    Nat.mul_div_cancel depth hwidth]

/-- **Rows laid out are outlines by their indentation**, if they are the lines
of these outlines. -/
theorem readOutlines_stack_lay (hwidth : 1 ≤ o.indentWidth) {rows : List Row}
    {outlines : List (Outline String)} (hlines : linesOf 0 outlines = Row.lines 0 rows)
    (h : ∀ row ∈ rows, Unbroken row.text ∧ Flush row.text) :
    readOutlines o (o.stack (o.lay 0 rows)) = outlines := by
  have hmeasure : (o.lay 0 rows).map o.measure = Row.lines 0 rows := by
    unfold lay Row.lines
    rw [List.map_map]
    exact List.map_congr_left (fun row hrow => o.measure_line hwidth _ (h row hrow).2)
  unfold readOutlines
  rw [o.lines_stack_lay 0 (fun row hrow => (h row hrow).1), hmeasure, ← hlines, nest_linesOf,
    List.map_map]
  exact List.map_id' outlines

end Options

/-- A phrase that binds no empty name and reads only what is inline keeps to
its line. -/
theorem Node.keepsToLine_of_readsInline {phrase : Node} (hread : phrase.readsInline mode = true)
    (hname : phrase.boundName? ≠ some "") : phrase.keepsToLine mode = true := by
  cases phrase with
  | declaration d => exact decide_eq_true (fun he => hname (congrArg some he))
  | _ => exact hread

/-- **Block structure can be read back from indentation alone.** The
indentation of every line is a whole number of levels. Reading the text nests
each line below the nearest line before it that is less deep, and what it
finds is the outline of the program: its simple statements and its headers,
each header with its own body below it.

No string may start with a space or hold a line ending, no name that is bound
may be empty, and what the phrases read has to be inline. -/
theorem readOutlines_render (o : Options) (p : Program) (hwidth : 1 ≤ o.indentWidth)
    (hstrings : ∀ s ∈ p.strings, Unbroken s ∧ Flush s)
    (hnames : ∀ phrase ∈ p.phrases, phrase.boundName? ≠ some "")
    (hread : ∀ phrase ∈ p.phrases, phrase.readsInline o.callArguments = true) :
    (∀ line ∈ o.lineEnding.lines (p.render o).value, o.indentWidth ∣ leadingSpaces line)
      ∧ entriesOf none (readOutlines o (p.render o).value)
        = withShallower [] ((o.lineEnding.lines (p.render o).value).map o.measure)
      ∧ readOutlines o (p.render o).value
        = p.outlines o.passEmptyBodies o.callArguments := by
  have hvalue : (p.render o).value
      = o.stack (o.lay 0 (rowsOf o.passEmptyBodies o.callArguments p.body)) :=
    (joinAlike_renderEach o p.body 0 (fun phrase h =>
      Node.keepsToLine_of_readsInline (hread phrase h) (hnames phrase h))).intercalate_eq
  have hunbroken := (unbrokenLaw o.callArguments).rowsOf o.passEmptyBodies p.body
    (fun s hs => (hstrings s hs).1) (fun _ _ => trivial)
  have hflush := (flushLaw o.callArguments).rowsOf o.passEmptyBodies p.body
    (fun s hs => (hstrings s hs).2) hnames
  refine ⟨?_, entries_nest _, ?_⟩
  · rw [hvalue, o.lines_stack_lay 0 hunbroken]
    intro line hline
    obtain ⟨row, hrow, rfl⟩ := List.mem_map.mp hline
    rw [o.leadingSpaces_line _ (hflush row hrow)]
    exact Nat.dvd_mul_left _ _
  · rw [hvalue]
    exact o.readOutlines_stack_lay hwidth (linesOf_outlinesOf _ p.body 0)
      (fun row hrow => ⟨hunbroken row hrow, hflush row hrow⟩)

/-- A function with a loop and a chain of conditions is read back from its
text, with an empty loop and an empty branch filled in. -/
theorem readOutlines_render_sampleMethod :
    ((∀ s ∈ (Program.mk [sampleMethod]).strings, Unbroken s ∧ Flush s)
        ∧ (∀ phrase ∈ (Program.mk [sampleMethod]).phrases, phrase.boundName? ≠ some "")
        ∧ (∀ phrase ∈ (Program.mk [sampleMethod]).phrases, phrase.readsInline .literals = true))
      ∧ readOutlines {} ((Program.mk [sampleMethod]).render {}).value
        = (Program.mk [sampleMethod]).outlines true .literals :=
  ⟨⟨by decide, by decide, by decide⟩,
    (readOutlines_render {} ⟨[sampleMethod]⟩ (by decide) (by decide) (by decide)
      (by decide)).2.2⟩

end Offside
