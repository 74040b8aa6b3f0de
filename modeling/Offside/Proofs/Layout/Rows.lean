import Offside.Proofs.Layout.Inline
import Offside.Proofs.Layout.Lines
import Offside.Proofs.Program.Strings

/-!
# The rows of a layout

Rendering builds a text out of texts, and decides by looking at a text
whether there is anything to indent, to join or to replace by `pass`. This
module describes the same layout without any text but that of single lines:
as a list of **rows**, each of which says how much deeper than its node it
stands and what it says. Sequences append rows, bodies push them one level
in, and emptiness is having no rows.

The rows of a node depend on two of the four options, on whether empty bodies
are filled in and on which arguments are kept, and on no depth. Indentation
and line endings come in only when rows are laid out (`Options.lay`), and
`Node.render_eq_intercalate_rows` says that this gives the rendered text.

It does so for nodes that keep to two conditions. What a phrase reads has to
be inline, since a statement inside an expression would bring line endings of
its own. And a declaration in statement position needs a name: without one it
is a line of nothing but indentation, which counts as empty at depth zero
only.
-/

namespace Offside

/-! ## Rows -/

/-- **A row**: a line that is not empty, and how deep it stands within its
node. -/
structure Row where
  /-- The levels of nesting between the node and the line. -/
  depth : Nat
  /-- The line without its indentation. -/
  text : String
  /-- An empty text is no row. -/
  text_ne : text ≠ ""
  deriving DecidableEq

namespace Row

/-- A row one level further in. -/
def deeper (row : Row) : Row := { row with depth := row.depth + 1 }

/-- The statement that stands for a body without text. -/
def pass : Row := ⟨0, "pass", by decide⟩

/-- **A header**: a text and a colon. -/
def header (text : String) : Row := ⟨0, text ++ ":", by simp⟩

end Row

/-- The header of a clause or a loop, up to its colon. -/
def conditionHeader (mode : CallArguments) (keyword : String) (condition : Expression) :
    String :=
  keyword ++ expressionText mode condition

/-- The header of a function, up to its colon. -/
def methodHeader (name : String) (args : List Node) : String :=
  "def " ++ name ++ "(" ++ ", ".intercalate (parameterNames args) ++ ")"

/-- The colon follows the closing parenthesis. -/
theorem methodHeader_colon (name : String) (args : List Node) :
    methodHeader name args ++ ":"
      = "def " ++ name ++ "(" ++ ", ".intercalate (parameterNames args) ++ "):" := by
  unfold methodHeader
  rw [String.append_assoc, show ")" ++ ":" = "):" from rfl]

/-- **The text of a simple statement**, without its indentation. -/
def Node.phraseText (mode : CallArguments) : Node → String
  | .assignment target op value =>
    target.boundName ++ " " ++ op ++ " " ++ expressionText mode value
  | .returnExpr value =>
    if expressionText mode value = "" then "return"
    else "return " ++ expressionText mode value
  | node => node.inlineText mode

/-- A simple statement takes a row, if it has a text. -/
def simpleRows (text : String) : List Row :=
  if h : text = "" then [] else [⟨0, text, h⟩]

/-- **The rows of a body**, from those of what is in it: one level in, with
`pass` in place of nothing if that is wanted. -/
def suiteRows (pass : Bool) (rows : List Row) : List Row :=
  (if rows.isEmpty && pass then [Row.pass] else rows).map Row.deeper

mutual

/-- **The rows of a node in statement position.** -/
def Node.rows (pass : Bool) (mode : CallArguments) : Node → List Row
  | .sequence _ nodes => rowsOf pass mode nodes
  | .wrapper _ inner => inner.rows pass mode
  | .conditional condition body next =>
    .header (conditionHeader mode "if " condition)
      :: body.rows pass mode ++ next.rows pass mode
  | .whileLoop condition body =>
    .header (conditionHeader mode "while " condition) :: body.rows pass mode
  | .method _ name args body =>
    .header (methodHeader name args) :: suiteRows pass (rowsOf pass mode body)
  | simple => simpleRows (simple.phraseText mode)

/-- The rows of nodes in the same position. -/
def rowsOf (pass : Bool) (mode : CallArguments) : List Node → List Row
  | [] => []
  | node :: nodes => node.rows pass mode ++ rowsOf pass mode nodes

/-- The rows of a body under its header. -/
def Body.rows (pass : Bool) (mode : CallArguments) : Body → List Row
  | .absent => suiteRows pass []
  | .block nodes => suiteRows pass (rowsOf pass mode nodes)
  | .single node => suiteRows pass (node.rows pass mode)

/-- **The rows of the clauses after an `if`**, which stand as deep as it
does. -/
def Continuation.rows (pass : Bool) (mode : CallArguments) : Continuation → List Row
  | .done => []
  | .elif condition body next =>
    .header (conditionHeader mode "elif " condition)
      :: body.rows pass mode ++ next.rows pass mode
  | .otherwise body => .header "else" :: body.rows pass mode

end

/-! ## What rows say

Every row is a phrase, a header or `pass`, and so a property that the text of
each of these has is one that every row has. -/

/-- **A property of lines that follows from one of strings**: `Line` holds of
all that can stand in a row, if `Word` holds of the strings it is made of and
`Phrase` of the phrase, in case it is one. -/
structure LineLaw (mode : CallArguments) (Word : String → Prop) (Phrase : Node → Prop)
    (Line : String → Prop) : Prop where
  /-- It holds of simple statements. -/
  phrase : ∀ node : Node, (∀ s ∈ node.strings, Word s) → Phrase node →
    Line (node.phraseText mode)
  /-- It holds of the headers of clauses and loops. -/
  condition : ∀ keyword ∈ ["if ", "elif ", "while "], ∀ condition : Expression,
    (∀ s ∈ stringsOf condition, Word s) →
      Line (conditionHeader mode keyword condition ++ ":")
  /-- It holds of the headers of functions. -/
  method : ∀ (name : String) (args : List Node), Word name →
    (∀ s ∈ stringsOf args, Word s) → Line (methodHeader name args ++ ":")
  /-- It holds of the header of an `else`. -/
  otherwise : Line ("else" ++ ":")
  /-- It holds of the statement for an empty body. -/
  pass : Line "pass"

namespace LineLaw

variable {Word : String → Prop} {Phrase : Node → Prop} {Line : String → Prop}

/-- What holds of a simple statement holds of its row. -/
theorem simpleRows {text : String} (h : Line text) :
    ∀ row ∈ Offside.simpleRows text, Line row.text := by
  unfold Offside.simpleRows
  split
  · exact List.forall_mem_nil _
  · exact List.forall_mem_singleton.mpr h

/-- What holds of the rows in a body holds of the rows of the body. -/
theorem suiteRows (law : LineLaw mode Word Phrase Line) (pass : Bool) {rows : List Row}
    (h : ∀ row ∈ rows, Line row.text) :
    ∀ row ∈ Offside.suiteRows pass rows, Line row.text := by
  intro row hrow
  obtain ⟨inner, hinner, rfl⟩ := List.mem_map.mp hrow
  show Line inner.text
  split at hinner
  · rw [List.mem_singleton.mp hinner]
    exact law.pass
  · exact h inner hinner

mutual

/-- **What holds of lines holds of the rows of a node.** -/
theorem rows (law : LineLaw mode Word Phrase Line) (pass : Bool) : ∀ node : Node,
    (∀ s ∈ node.strings, Word s) → (∀ phrase ∈ node.phrases, Phrase phrase) →
      ∀ row ∈ node.rows pass mode, Line row.text
  | .sequence _ nodes, hs, hp => rowsOf law pass nodes hs hp
  | .wrapper _ inner, hs, hp => rows law pass inner hs hp
  | .conditional condition body next, hs, hp => by
    simp only [Node.strings, Node.phrases, List.forall_mem_append, List.forall_mem_cons]
      at hs hp
    rw [Node.rows, List.cons_append, List.forall_mem_cons, List.forall_mem_append]
    exact ⟨law.condition "if " (by simp) condition hs.1.1,
      bodyRows law pass body hs.1.2 hp.2.1, continuationRows law pass next hs.2 hp.2.2⟩
  | .whileLoop condition body, hs, hp => by
    simp only [Node.strings, Node.phrases, List.forall_mem_append, List.forall_mem_cons]
      at hs hp
    rw [Node.rows, List.forall_mem_cons]
    exact ⟨law.condition "while " (by simp) condition hs.1, bodyRows law pass body hs.2 hp.2⟩
  | .method _ name args body, hs, hp => by
    simp only [Node.strings, List.cons_append, List.forall_mem_append, List.forall_mem_cons]
      at hs
    rw [Node.rows, List.forall_mem_cons]
    exact ⟨law.method name args hs.2.1 hs.2.2.1,
      suiteRows law pass (rowsOf law pass body hs.2.2.2 hp)⟩
  | .declaration d, hs, hp => simpleRows (law.phrase _ hs (hp _ List.mem_cons_self))
  | .assignment _ _ _, hs, hp => simpleRows (law.phrase _ hs (hp _ List.mem_cons_self))
  | .expression _, hs, hp => simpleRows (law.phrase _ hs (hp _ List.mem_cons_self))
  | .operator _, hs, hp => simpleRows (law.phrase _ hs (hp _ List.mem_cons_self))
  | .literal _, hs, hp => simpleRows (law.phrase _ hs (hp _ List.mem_cons_self))
  | .returnExpr _, hs, hp => simpleRows (law.phrase _ hs (hp _ List.mem_cons_self))
  | .call _ _, hs, hp => simpleRows (law.phrase _ hs (hp _ List.mem_cons_self))
  | .token _, hs, hp => simpleRows (law.phrase _ hs (hp _ List.mem_cons_self))

/-- What holds of lines holds of the rows of nodes. -/
theorem rowsOf (law : LineLaw mode Word Phrase Line) (pass : Bool) : ∀ nodes : List Node,
    (∀ s ∈ stringsOf nodes, Word s) → (∀ phrase ∈ phrasesOf nodes, Phrase phrase) →
      ∀ row ∈ Offside.rowsOf pass mode nodes, Line row.text
  | [], _, _ => List.forall_mem_nil _
  | node :: nodes, hs, hp => by
    simp only [stringsOf, phrasesOf, List.forall_mem_append] at hs hp
    rw [Offside.rowsOf, List.forall_mem_append]
    exact ⟨rows law pass node hs.1 hp.1, rowsOf law pass nodes hs.2 hp.2⟩

/-- What holds of lines holds of the rows of a body. -/
theorem bodyRows (law : LineLaw mode Word Phrase Line) (pass : Bool) : ∀ body : Body,
    (∀ s ∈ body.strings, Word s) → (∀ phrase ∈ body.phrases, Phrase phrase) →
      ∀ row ∈ body.rows pass mode, Line row.text
  | .absent, _, _ => suiteRows law pass (List.forall_mem_nil _)
  | .block nodes, hs, hp => suiteRows law pass (rowsOf law pass nodes hs hp)
  | .single node, hs, hp => suiteRows law pass (rows law pass node hs hp)

/-- What holds of lines holds of the rows of the clauses after an `if`. -/
theorem continuationRows (law : LineLaw mode Word Phrase Line) (pass : Bool) :
    ∀ next : Continuation,
    (∀ s ∈ next.strings, Word s) → (∀ phrase ∈ next.phrases, Phrase phrase) →
      ∀ row ∈ next.rows pass mode, Line row.text
  | .done, _, _ => List.forall_mem_nil _
  | .elif condition body next, hs, hp => by
    simp only [Continuation.strings, Continuation.phrases, List.forall_mem_append,
      List.forall_mem_cons] at hs hp
    rw [Continuation.rows, List.cons_append, List.forall_mem_cons, List.forall_mem_append]
    exact ⟨law.condition "elif " (by simp) condition hs.1.1,
      bodyRows law pass body hs.1.2 hp.2.1, continuationRows law pass next hs.2 hp.2.2⟩
  | .otherwise body, hs, hp => by
    rw [Continuation.rows, List.forall_mem_cons]
    exact ⟨law.otherwise, bodyRows law pass body hs hp⟩

end

end LineLaw

mutual

/-- Unbroken strings make an unbroken text. -/
theorem Node.unbroken_inlineText : ∀ node : Node,
    (∀ s ∈ node.strings, Unbroken s) → Unbroken (node.inlineText mode)
  | .expression parts, h => Unbroken.joinNonEmpty (by decide) (unbroken_inlineTexts parts h)
  | .operator tokens, h => Unbroken.joinNonEmpty (by decide) h
  | .literal tokens, h => Unbroken.joinNonEmpty (by decide) h
  | .declaration d, h => h _ (List.mem_cons_of_mem _ List.mem_cons_self)
  | .call name args, h => by
    rw [Node.strings, List.forall_mem_cons] at h
    simp only [Node.inlineText, unbroken_append]
    exact ⟨⟨⟨h.1, by decide⟩, Unbroken.joinNonEmpty (by decide) (unbroken_keptTexts args h.2)⟩,
      by decide⟩
  | .sequence _ _, _ => unbroken_empty
  | .wrapper _ _, _ => unbroken_empty
  | .assignment _ _ _, _ => unbroken_empty
  | .conditional _ _ _, _ => unbroken_empty
  | .whileLoop _ _, _ => unbroken_empty
  | .method _ _ _ _, _ => unbroken_empty
  | .returnExpr _, _ => unbroken_empty
  | .token _, _ => unbroken_empty

/-- Unbroken strings make unbroken parts. -/
theorem unbroken_inlineTexts : ∀ nodes : List Node,
    (∀ s ∈ stringsOf nodes, Unbroken s) → ∀ text ∈ inlineTexts mode nodes, Unbroken text
  | [], _ => List.forall_mem_nil _
  | node :: nodes, h => by
    rw [stringsOf, List.forall_mem_append] at h
    rw [inlineTexts, List.forall_mem_cons]
    exact ⟨Node.unbroken_inlineText node h.1, unbroken_inlineTexts nodes h.2⟩

/-- Unbroken strings make unbroken arguments. -/
theorem unbroken_keptTexts : ∀ args : List Node,
    (∀ s ∈ stringsOf args, Unbroken s) → ∀ text ∈ keptTexts mode args, Unbroken text
  | [], _ => List.forall_mem_nil _
  | arg :: args, h => by
    rw [stringsOf, List.forall_mem_append] at h
    have ih : ∀ text ∈ keptTexts mode args, Unbroken text := unbroken_keptTexts args h.2
    rw [keptTexts]
    split
    · rw [List.forall_mem_cons]
      exact ⟨Node.unbroken_inlineText arg h.1, ih⟩
    · exact ih

end

theorem unbroken_expressionText {parts : Expression} (h : ∀ s ∈ stringsOf parts, Unbroken s) :
    Unbroken (expressionText mode parts) :=
  Unbroken.joinNonEmpty (by decide) (unbroken_inlineTexts parts h)

/-- The names of parameters are strings of the arguments. -/
theorem parameterNames_subset (args : List Node) : parameterNames args ⊆ stringsOf args := by
  intro name hname
  obtain ⟨arg, harg, heq⟩ := List.mem_filterMap.mp hname
  cases arg with
  | declaration d =>
    rw [← Option.some.inj heq]
    exact strings_of_mem_stringsOf harg _ (List.mem_cons_of_mem _ List.mem_cons_self)
  | _ => exact absurd heq (Option.some_ne_none _).symm

theorem unbroken_parameterNames {args : List Node} (h : ∀ s ∈ stringsOf args, Unbroken s) :
    ∀ name ∈ parameterNames args, Unbroken name :=
  fun name hname => h name (parameterNames_subset args hname)

/-- **A line of unbroken strings is unbroken.** -/
theorem unbrokenLaw (mode : CallArguments) :
    LineLaw mode Unbroken (fun _ => True) Unbroken where
  phrase node h _ := by
    cases node with
    | assignment target op value =>
      simp only [Node.strings, List.forall_mem_append, List.forall_mem_cons] at h
      simp only [Node.phraseText, unbroken_append]
      exact ⟨⟨⟨⟨h.1 _ target.boundName_mem_strings, by decide⟩, h.2.1⟩, by decide⟩,
        unbroken_expressionText h.2.2⟩
    | returnExpr value =>
      show Unbroken (if expressionText mode value = "" then "return"
        else "return " ++ expressionText mode value)
      split
      · decide
      · exact unbroken_append.mpr ⟨by decide, unbroken_expressionText h⟩
    | _ => exact Node.unbroken_inlineText _ h
  condition keyword hk condition h := by
    have hkeyword : Unbroken keyword := by
      revert keyword
      decide
    unfold conditionHeader
    rw [unbroken_append, unbroken_append]
    exact ⟨⟨hkeyword, unbroken_expressionText h⟩, by decide⟩
  method name args hn ha := by
    unfold methodHeader
    simp only [unbroken_append]
    exact ⟨⟨⟨⟨⟨by decide, hn⟩, by decide⟩,
      Unbroken.intercalate (by decide) (unbroken_parameterNames ha)⟩, by decide⟩, by decide⟩
  otherwise := by decide
  pass := by decide

mutual

/-- Flush strings make a flush text. -/
theorem Node.flush_inlineText : ∀ node : Node,
    (∀ s ∈ node.strings, Flush s) → Flush (node.inlineText mode)
  | .expression parts, h => Flush.joinNonEmpty (flush_inlineTexts parts h)
  | .operator tokens, h => Flush.joinNonEmpty h
  | .literal tokens, h => Flush.joinNonEmpty h
  | .declaration d, h => h _ (List.mem_cons_of_mem _ List.mem_cons_self)
  | .call name args, h => by
    have hname : Flush name := h name List.mem_cons_self
    -- a call without a name starts with its parenthesis
    have hopen : Flush (name ++ "(") := hname.append (fun _ => by decide)
    exact (hopen.append_of_ne (by simp)).append_of_ne (by simp)
  | .sequence _ _, _ => flush_empty
  | .wrapper _ _, _ => flush_empty
  | .assignment _ _ _, _ => flush_empty
  | .conditional _ _ _, _ => flush_empty
  | .whileLoop _ _, _ => flush_empty
  | .method _ _ _ _, _ => flush_empty
  | .returnExpr _, _ => flush_empty
  | .token _, _ => flush_empty

/-- Flush strings make flush parts. -/
theorem flush_inlineTexts : ∀ nodes : List Node,
    (∀ s ∈ stringsOf nodes, Flush s) → ∀ text ∈ inlineTexts mode nodes, Flush text
  | [], _ => List.forall_mem_nil _
  | node :: nodes, h => by
    rw [stringsOf, List.forall_mem_append] at h
    rw [inlineTexts, List.forall_mem_cons]
    exact ⟨Node.flush_inlineText node h.1, flush_inlineTexts nodes h.2⟩

end

/-- The name that a phrase gives a value or a type, if it does that. -/
def Node.boundName? : Node → Option String
  | .declaration d => some d.name
  | .assignment target _ _ => some target.boundName
  | _ => none

/-- **A line of flush strings is flush**, unless it is an assignment to a
name that is empty, which starts with the space behind the name. -/
theorem flushLaw (mode : CallArguments) :
    LineLaw mode Flush (fun phrase => phrase.boundName? ≠ some "") Flush where
  phrase node h hname := by
    cases node with
    | assignment target op value =>
      rw [Node.strings, List.forall_mem_append] at h
      have htarget : Flush target.boundName := h.1 _ target.boundName_mem_strings
      have hne : target.boundName ≠ "" := fun he => hname (congrArg some he)
      have hop : Flush (target.boundName ++ " " ++ op) :=
        (htarget.append_of_ne hne).append_of_ne (by simp)
      exact (hop.append_of_ne (by simp)).append_of_ne (by simp)
    | returnExpr value =>
      show Flush (if expressionText mode value = "" then "return"
        else "return " ++ expressionText mode value)
      split
      · decide
      · exact Flush.append_of_ne (by decide) (by decide)
    | _ => exact Node.flush_inlineText _ h
  condition keyword hk condition _ := by
    have hkeyword : Flush keyword ∧ keyword ≠ "" := by
      revert keyword
      decide
    exact (hkeyword.1.append_of_ne hkeyword.2).append_of_ne (by simp [hkeyword.2])
  method name args _ _ := by
    have hdef : Flush ("def " ++ name) := Flush.append_of_ne (by decide) (by decide)
    unfold methodHeader
    exact (((hdef.append_of_ne (by simp)).append_of_ne (by simp)).append_of_ne
      (by simp)).append_of_ne (by simp)
  otherwise := by decide
  pass := by decide

/-! ## Rows laid out -/

namespace Options

/-- **Rows as lines**, for a node at `depth`. -/
def lay (o : Options) (depth : Nat) (rows : List Row) : List String :=
  rows.map fun row => o.line (depth + row.depth) row.text

variable (o : Options) (depth : Nat)

@[simp] theorem lay_nil : o.lay depth [] = [] := rfl

@[simp] theorem lay_append (rows rows' : List Row) :
    o.lay depth (rows ++ rows') = o.lay depth rows ++ o.lay depth rows' :=
  List.map_append

@[simp] theorem lay_header (text : String) (rows : List Row) :
    o.lay depth (Row.header text :: rows)
      = o.line depth (text ++ ":") :: o.lay depth rows := rfl

/-- Rows one level further in are the rows of a node one level deeper. -/
theorem lay_deeper (rows : List Row) :
    o.lay depth (rows.map Row.deeper) = o.lay (depth + 1) rows := by
  unfold lay
  rw [List.map_map]
  refine List.map_congr_left (fun row _ => ?_)
  show o.line (depth + (row.depth + 1)) row.text = o.line (depth + 1 + row.depth) row.text
  rw [Nat.add_assoc, Nat.add_comm 1]

theorem line_ne_empty {text : String} (h : text ≠ "") : o.line depth text ≠ "" := by
  unfold line
  intro he
  exact h (String.append_eq_empty_iff.mp he).2

/-- No row is laid out as an empty line. -/
theorem ne_empty_of_mem_lay (rows : List Row) : ∀ line ∈ o.lay depth rows, line ≠ "" := by
  intro line hline
  obtain ⟨row, -, rfl⟩ := List.mem_map.mp hline
  exact o.line_ne_empty _ row.text_ne

/-- **A simple statement is its row laid out.** -/
theorem place_eq_stack (text : String) :
    o.place depth text = o.stack (o.lay depth (simpleRows text)) := by
  unfold place stack simpleRows
  by_cases h : text = ""
  · rw [if_pos h, dif_pos h, lay_nil, String.intercalate_nil]
  · rw [if_neg h, dif_neg h]
    exact String.intercalate_singleton.symm

/-- A simple statement with a text is a line, and its row laid out. -/
theorem line_eq_stack {text : String} (h : text ≠ "") :
    o.line depth text = o.stack (o.lay depth (simpleRows text)) := by
  rw [← place_eq_stack, place, if_neg h, line]

/-- **The lines under a header are the rows of the body laid out**, whatever
they are joined with. -/
theorem suite_joinAlike (rows : List Row) :
    JoinAlike o.lineEnding.text (o.suite (depth + 1) (o.stack (o.lay (depth + 1) rows)))
      (o.lay depth (suiteRows o.passEmptyBodies rows)) := by
  unfold suiteRows
  rw [lay_deeper]
  -- a body is without text exactly if it is without rows
  cases rows with
  | nil =>
    rw [suite, if_neg (by simp [stack])]
    cases o.passEmptyBodies <;> exact JoinAlike.refl _
  | cons row rows =>
    have hne : o.stack (o.lay (depth + 1) (row :: rows)) ≠ "" :=
      intercalate_ne_empty (List.cons_ne_nil _ _) (o.ne_empty_of_mem_lay _ _)
    rw [suite, if_pos hne]
    exact JoinAlike.join (List.cons_ne_nil _ _)

end Options

/-! ## Rendering lays out the rows -/

/-- **Whether a phrase keeps to its line**: a declaration if it has a name,
any other phrase if what it reads is inline. -/
def Node.keepsToLine (mode : CallArguments) : Node → Bool
  | .declaration d => d.name ≠ ""
  | phrase => phrase.readsInline mode

section Render

variable (o : Options)

mutual

/-- **A node is rendered as its rows laid out**, if its phrases keep to their
lines. -/
theorem Node.value_render : ∀ (node : Node) (depth : Nat),
    (∀ phrase ∈ node.phrases, phrase.keepsToLine o.callArguments = true) →
      (node.render o depth).value
        = o.stack (o.lay depth (node.rows o.passEmptyBodies o.callArguments))
  | .sequence _ nodes, depth, h => by
    exact (joinAlike_renderEach nodes depth h).intercalate_eq
  | .wrapper _ inner, depth, h => Node.value_render inner depth h
  | .declaration d, depth, h => by
    -- without a name there would be a line of indentation here, and no row
    have hd : d.name ≠ "" := of_decide_eq_true (h _ List.mem_cons_self)
    exact o.line_eq_stack depth hd
  | .assignment target op value, depth, h => by
    have hv : areInline o.callArguments value = true := h _ List.mem_cons_self
    simp only [Node.render, Logged.value_bind, Logged.value_pure,
      value_renderEach_zero o value hv]
    exact o.line_eq_stack depth (by simp)
  | .expression parts, depth, h => by
    have hp : areInline o.callArguments parts = true := h _ List.mem_cons_self
    simp only [Node.render, Logged.value_bind, Logged.value_pure,
      value_renderEach_zero o parts hp]
    exact o.place_eq_stack depth _
  | .operator tokens, depth, _ => o.place_eq_stack depth _
  | .literal tokens, depth, _ => o.place_eq_stack depth _
  | .conditional condition body next, depth, h => by
    rw [Node.phrases, List.forall_mem_cons, List.forall_mem_append] at h
    have hc : areInline o.callArguments condition = true := h.1
    simp only [Node.render, Logged.value_bind, Logged.value_pure,
      value_renderEach_zero o condition hc]
    rw [Node.rows, Options.lay_append, Options.lay_header]
    exact (((joinAlike_body body depth h.2.1).cons _).append
      (joinAlike_continuation next depth h.2.2)).intercalate_eq
  | .whileLoop condition body, depth, h => by
    rw [Node.phrases, List.forall_mem_cons] at h
    have hc : areInline o.callArguments condition = true := h.1
    simp only [Node.render, Logged.value_bind, Logged.value_pure,
      value_renderEach_zero o condition hc]
    exact ((joinAlike_body body depth h.2).cons _).intercalate_eq
  | .method _ name args body, depth, h => by
    have hb : o.stackNonEmpty (renderEach o (depth + 1) body).value = _ :=
      (joinAlike_renderEach body (depth + 1) h).intercalate_eq
    simp only [Node.render, Logged.value_bind, Logged.value_pure, hb]
    rw [← methodHeader_colon, Node.rows, Options.lay_header]
    exact ((o.suite_joinAlike depth _).cons _).intercalate_eq
  | .returnExpr value, depth, h => by
    have hv : areInline o.callArguments value = true := h _ List.mem_cons_self
    simp only [Node.render, Logged.value_bind, Logged.value_pure,
      value_renderEach_zero o value hv]
    refine o.line_eq_stack depth ?_
    split <;> simp
  | .call name args, depth, h => by
    have ha : keptAreInline o.callArguments args = true := h _ List.mem_cons_self
    simp only [Node.render, Logged.value_bind, Logged.value_pure,
      value_renderArguments o name args ha]
    exact o.place_eq_stack depth _
  | .token _, depth, _ => (o.place_eq_stack depth "")

/-- The nodes of a sequence, without the empty ones, and their rows. -/
theorem joinAlike_renderEach : ∀ (nodes : List Node) (depth : Nat),
    (∀ phrase ∈ phrasesOf nodes, phrase.keepsToLine o.callArguments = true) →
      JoinAlike o.lineEnding.text ((renderEach o depth nodes).value.filter (· ≠ ""))
        (o.lay depth (rowsOf o.passEmptyBodies o.callArguments nodes))
  | [], _, _ => JoinAlike.refl []
  | node :: nodes, depth, h => by
    rw [phrasesOf, List.forall_mem_append] at h
    rw [rowsOf, Options.lay_append]
    exact JoinAlike.filter_cons (Node.value_render node depth h.1)
      (o.ne_empty_of_mem_lay depth _) (joinAlike_renderEach nodes depth h.2)

/-- The lines under a header and the rows of the body. -/
theorem joinAlike_body : ∀ (body : Body) (depth : Nat),
    (∀ phrase ∈ body.phrases, phrase.keepsToLine o.callArguments = true) →
      JoinAlike o.lineEnding.text (body.render o (depth + 1)).value
        (o.lay depth (body.rows o.passEmptyBodies o.callArguments))
  | .absent, depth, _ => o.suite_joinAlike depth []
  | .block nodes, depth, h => by
    have hn : o.stackNonEmpty (renderEach o (depth + 1) nodes).value = _ :=
      (joinAlike_renderEach nodes (depth + 1) h).intercalate_eq
    simp only [Body.render, Logged.value_bind, Logged.value_pure, hn]
    exact o.suite_joinAlike depth _
  | .single node, depth, h => by
    simp only [Body.render, Logged.value_bind, Logged.value_pure,
      Node.value_render node (depth + 1) h]
    exact o.suite_joinAlike depth _

/-- The clauses after an `if` and their rows. -/
theorem joinAlike_continuation : ∀ (next : Continuation) (depth : Nat),
    (∀ phrase ∈ next.phrases, phrase.keepsToLine o.callArguments = true) →
      JoinAlike o.lineEnding.text (next.render o depth).value
        (o.lay depth (next.rows o.passEmptyBodies o.callArguments))
  | .done, _, _ => JoinAlike.refl []
  | .elif condition body next, depth, h => by
    rw [Continuation.phrases, List.forall_mem_cons, List.forall_mem_append] at h
    have hc : areInline o.callArguments condition = true := h.1
    simp only [Continuation.render, Logged.value_bind, Logged.value_pure,
      value_renderEach_zero o condition hc]
    rw [Continuation.rows, Options.lay_append, Options.lay_header]
    exact ((joinAlike_body body depth h.2.1).cons _).append
      (joinAlike_continuation next depth h.2.2)
  | .otherwise body, depth, h => (joinAlike_body body depth h).cons _

end

end Render

/-- A function with a loop that does nothing, and a chain of conditions with a
branch that has no body. One of its calls has an argument that is dropped. -/
def sampleMethod : Node :=
  .method "int" "f" [.token "(", .declaration ⟨"int", "a"⟩, .token ")"]
    [.wrapper .cycle (.whileLoop [.literal ["a"], .operator ["<"], .literal ["2"]]
        (.block [.token ";"])),
      .sequence .statements [],
      .wrapper .controlConstruct (.conditional [.literal ["a"]]
        (.single (.wrapper .statement (.returnExpr [])))
        (.elif [.literal ["b"]] .absent
          (.otherwise (.block [.assignment (.name "x") "="
            [.call "g" [.literal ["1"], .token ",", .returnExpr []]]]))))]

end Offside
