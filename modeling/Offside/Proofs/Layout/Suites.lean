import Mathlib.Data.List.Basic
import Offside.Proofs.Layout.Rows

/-!
# Suites and what they show

A **suite** is what stands below a header, one level further in. It must not
be left without content, and for that a body without text is given the
statement `pass`. Whether a body has a text is not the same as whether there is
anything to be seen of it. A word that is nothing but spaces is written as it
is, and a body with nothing else in it is no body without text.

`Node.suites` lists the suites that a node is rendered with, wherever their
headers stand, within expressions as well. Each of them shows something
(`Suite.shows_text`) unless its body is blank (`Body.IsBlank`): there are words
standing in it and none of them shows anything. A blank body shows nothing
indeed (`Suite.not_shows_text`). Only what stands in the body itself counts
(`Node.words`): a header below it, a call or a `return` can always be seen.

Two kinds of statements have a word that can be empty. A declaration is
written as its name, on a line that is indented without regard for whether
there is one, and an assignment as its name and its operator with a space
behind each. In an expression, where nothing is indented, a name that is empty
leaves no trace.
-/

namespace Offside

/-! ## Texts that show something -/

/-- **A text shows something** if one of its characters is neither a space nor
part of a line ending. -/
def Shows (text : String) : Prop := ∃ c ∈ text.toList, c ≠ ' ' ∧ c ≠ '\r' ∧ c ≠ '\n'

instance : DecidablePred Shows := fun text => List.decidableBEx _ text.toList

theorem not_shows_empty : ¬ Shows "" := by decide

theorem Shows.ne_empty {text : String} (h : Shows text) : text ≠ "" := by
  rintro rfl
  exact not_shows_empty h

/-- What a text shows is shown by one of its parts. -/
theorem shows_append {text more : String} : Shows (text ++ more) ↔ Shows text ∨ Shows more := by
  simp only [Shows, String.toList_append, List.mem_append, or_and_right, exists_or]

section Join

variable {separator : String}

/-- **A join shows what its texts show**, if what is between them shows nothing. -/
theorem shows_intercalate (hsep : ¬ Shows separator) (texts : List String) :
    Shows (separator.intercalate texts) ↔ ∃ text ∈ texts, Shows text := by
  induction texts with
  | nil => simp [String.intercalate_nil, not_shows_empty]
  | cons text texts ih =>
    cases texts with
    | nil => simp [String.intercalate_singleton]
    | cons next rest =>
      rw [String.intercalate_cons_cons, shows_append, shows_append, ih, or_iff_left hsep,
        ← List.exists_mem_cons_iff Shows text]

/-- The empty texts are not missed. -/
theorem shows_joinNonEmpty (hsep : ¬ Shows separator) (texts : List String) :
    Shows (joinNonEmpty separator texts) ↔ ∃ text ∈ texts, Shows text := by
  rw [joinNonEmpty, shows_intercalate hsep]
  refine exists_congr fun text => and_congr_left fun hshows => ?_
  rw [List.mem_filter, and_iff_left (by simpa using hshows.ne_empty)]

end Join

namespace Options

variable (o : Options) (depth : Nat)

theorem not_shows_lineEnding : ¬ Shows o.lineEnding.text := by
  cases o.lineEnding <;> decide

/-- Indentation shows nothing. -/
theorem not_shows_indent : ¬ Shows (o.indent depth) := by
  rintro ⟨c, hc, hspace, -⟩
  rw [indent, String.toList_ofList] at hc
  exact hspace (List.eq_of_mem_replicate hc)

/-- A line shows what is behind its indentation. -/
theorem shows_line {text : String} : Shows (o.line depth text) ↔ Shows text := by
  rw [line, shows_append, or_iff_right (o.not_shows_indent depth)]

theorem shows_place {text : String} : Shows (o.place depth text) ↔ Shows text := by
  unfold place
  split
  case isTrue h => rw [h]
  case isFalse => exact o.shows_line depth

end Options

/-- A header can be seen, whatever it is about. -/
theorem Options.shows_header (o : Options) (depth : Nat) (text : String) {ending : String}
    (h : Shows ending) (lines : List String) :
    Shows (o.stack (o.line depth (text ++ ending) :: lines)) := by
  rw [Options.stack, shows_intercalate o.not_shows_lineEnding]
  exact ⟨_, List.mem_cons_self, (o.shows_line depth).mpr (shows_append.mpr (Or.inr h))⟩

/-! ## Words -/

/-- **A text carries words** if it shows something exactly if one of them does, and if
it is empty exactly if there are none. An empty word may be written on a line that is
indented, and then the text is not empty. So nothing is said of emptiness where there is
an empty word. -/
structure Carries (words : List String) (text : String) : Prop where
  /-- There is no text without words. -/
  eq_empty : words = [] → text = ""
  /-- There is a text if there are words, and none of them is empty. -/
  ne_empty : words ≠ [] → "" ∉ words → text ≠ ""
  /-- What is shown is what a word shows. -/
  shows_iff : Shows text ↔ ∃ word ∈ words, Shows word

namespace Carries

variable {words others : List String} {text word : String}

theorem nil : Carries [] "" := ⟨fun _ => rfl, nofun, by simp [not_shows_empty]⟩

/-- A text that can be seen carries any word that can be seen. -/
theorem of_shows (h : Shows text) (hword : Shows word) : Carries [word] text where
  eq_empty := nofun
  ne_empty _ _ := h.ne_empty
  shows_iff := iff_of_true h ⟨word, List.mem_cons_self, hword⟩

/-- One more text in a join brings its words. -/
theorem cons {separator : String} {texts : List String} (hsep : ¬ Shows separator)
    (h : Carries words text) (h' : Carries others (joinNonEmpty separator texts)) :
    Carries (words ++ others) (joinNonEmpty separator (text :: texts)) where
  eq_empty hnil := by
    obtain ⟨hw, ho⟩ := List.append_eq_nil_iff.mp hnil
    rw [h.eq_empty hw, joinNonEmpty_empty_cons, h'.eq_empty ho]
  ne_empty hne hempty := by
    rw [List.mem_append, not_or] at hempty
    rw [joinNonEmpty_cons]
    by_cases hw : words = []
    · have ho : others ≠ [] := fun ho => hne (by rw [hw, ho]; rfl)
      rw [if_pos (h.eq_empty hw)]
      exact h'.ne_empty ho hempty.2
    · have htext := h.ne_empty hw hempty.1
      rw [if_neg htext]
      split
      · exact htext
      · simp [htext]
  shows_iff := by
    have hrest := h'.shows_iff
    rw [shows_joinNonEmpty hsep] at hrest ⊢
    rw [List.exists_mem_cons_iff, h.shows_iff, hrest]
    simp only [List.mem_append, or_and_right, exists_or]

/-- A text in statement position carries the words it carries without
indentation. -/
theorem place (h : Carries words text) (o : Options) (depth : Nat) :
    Carries words (o.place depth text) where
  eq_empty hnil := by
    rw [h.eq_empty hnil]
    rfl
  ne_empty hne hempty := by
    rw [Options.place, if_neg (h.ne_empty hne hempty)]
    simp [h.ne_empty hne hempty]
  shows_iff := (o.shows_place depth).trans h.shows_iff

/-- Tokens carry those that are not empty. -/
theorem tokens (tokens : List String) :
    Carries (tokens.filter (· ≠ "")) (joinNonEmpty " " tokens) where
  eq_empty hnil := by
    unfold joinNonEmpty
    rw [hnil, String.intercalate_nil]
  ne_empty hne _ := intercalate_ne_empty hne fun token h => by
    simpa using (List.mem_filter.mp h).2
  shows_iff := shows_intercalate (by decide) _

end Carries

mutual

/-- **The words of a node in statement position.** A node with a header, a call
or a `return` has a word that can always be seen. A declared name that is empty
is a word if lines are indented. -/
def Node.words (indented : Bool) : Node → List String
  | .sequence _ nodes => wordsOf indented nodes
  | .wrapper _ inner => inner.words indented
  | .declaration d => if indented then [d.name] else [d.name].filter (· ≠ "")
  | .assignment target op value => (target.boundName ++ op) :: wordsOf false value
  | .expression parts => wordsOf false parts
  | .operator tokens | .literal tokens => tokens.filter (· ≠ "")
  | .conditional _ _ _ => ["if"]
  | .whileLoop _ _ => ["while"]
  | .method _ _ _ _ => ["def"]
  | .returnExpr _ => ["return"]
  | .call name _ => [name ++ "("]
  | .token _ => []

/-- The words of nodes in the same position. -/
def wordsOf (indented : Bool) : List Node → List String
  | [] => []
  | node :: nodes => node.words indented ++ wordsOf indented nodes

end

/-- The words of a body, which is always indented. -/
def Body.words : Body → List String
  | absent => []
  | block nodes => wordsOf true nodes
  | single node => node.words true

section Words

variable (o : Options)

mutual

/-- **A node is rendered as a text that carries its words.** -/
theorem Node.carries_render (indented : Bool) : ∀ (node : Node) (depth : Nat),
    indented = true ∨ depth = 0 → Carries (node.words indented) (node.render o depth).value
  | .sequence _ nodes, depth, hd =>
    carries_renderEach indented o.not_shows_lineEnding nodes depth hd
  | .wrapper _ inner, depth, hd => Node.carries_render indented inner depth hd
  | .declaration d, depth, hd => by
    cases indented with
    | true =>
      refine ⟨nofun, fun _ hempty heq => hempty ?_, ?_⟩
      · exact List.mem_singleton.mpr (String.append_eq_empty_iff.mp heq).2.symm
      · exact (o.shows_line depth).trans (by simp [Node.words])
    | false =>
      -- without indentation, a line of no name is no line
      obtain rfl : depth = 0 := hd.resolve_left nofun
      have hplace : (Node.render o 0 (.declaration d)).value = joinNonEmpty " " [d.name] := by
        by_cases hname : d.name = ""
        · simp only [Node.render, Logged.value_pure, o.line_zero, hname]
          rfl
        · simp [Node.render, o.line_zero, joinNonEmpty, hname, String.intercalate_singleton]
      rw [hplace]
      exact .tokens [d.name]
  | .assignment target op value, depth, _ => by
    have hvalue := carries_renderEach false (by decide : ¬ Shows " ") value 0 (Or.inr rfl)
    have hspace : ¬ Shows " " := by decide
    refine ⟨nofun, fun _ _ heq => ?_, (o.shows_line depth).trans ?_⟩
    · -- there are spaces between the parts of an assignment
      simp [Node.render, Options.line] at heq
    · rw [shows_append, hvalue.shows_iff, Node.words, List.exists_mem_cons_iff]
      simp only [shows_append, hspace, or_false]
  | .expression parts, depth, _ =>
    (carries_renderEach false (by decide) parts 0 (Or.inr rfl)).place o depth
  | .operator tokens, depth, _ => (Carries.tokens tokens).place o depth
  | .literal tokens, depth, _ => (Carries.tokens tokens).place o depth
  | .conditional condition body next, depth, _ =>
    .of_shows (o.shows_header depth _ (by decide) _) (by decide)
  | .whileLoop condition body, depth, _ =>
    .of_shows (o.shows_header depth _ (by decide) _) (by decide)
  | .method _ name args body, depth, _ =>
    .of_shows (o.shows_header depth _ (by decide) _) (by decide)
  | .returnExpr value, depth, _ => by
    refine .of_shows ((o.shows_line depth).mpr ?_) (by decide)
    split
    · decide
    · exact shows_append.mpr (Or.inl (by decide))
  | .call name args, depth, _ =>
    (Carries.of_shows (shows_append.mpr (Or.inr (by decide)))
      (shows_append.mpr (Or.inr (by decide)))).place o depth
  | .token _, _, _ => .nil

/-- Nodes in the same position are joined to a text that carries their words. -/
theorem carries_renderEach (indented : Bool) {separator : String} (hsep : ¬ Shows separator) :
    ∀ (nodes : List Node) (depth : Nat), indented = true ∨ depth = 0 →
      Carries (wordsOf indented nodes)
        (joinNonEmpty separator (renderEach o depth nodes).value)
  | [], _, _ => .nil
  | node :: nodes, depth, hd =>
    (Node.carries_render indented node depth hd).cons hsep
      (carries_renderEach indented hsep nodes depth hd)

end

end Words

/-! ## Suites -/

/-- **A suite**: a body, and the header it is written below. -/
structure Suite where
  /-- The header, a line with its indentation. -/
  header : String
  /-- The depth of the body. -/
  depth : Nat
  /-- The body. -/
  body : Body

namespace Suite

variable (o : Options)

/-- **The text of a suite.** -/
def text (s : Suite) : String := o.stack (s.body.render o s.depth).value

end Suite

/-- The text of a condition. -/
def conditionText (o : Options) (condition : Expression) : String :=
  joinNonEmpty " " (renderEach o 0 condition).value

mutual

/-- **The suites that a node at `depth` is rendered with**, each behind its
header, in the order in which they are written. -/
def Node.suites (o : Options) (depth : Nat) : Node → List Suite
  | .sequence _ nodes => suitesOf o depth nodes
  | .wrapper _ inner => inner.suites o depth
  | .declaration _ | .operator _ | .literal _ | .token _ => []
  | .assignment _ _ value => suitesOf o 0 value
  | .expression parts => suitesOf o 0 parts
  | .conditional condition body next =>
    suitesOf o 0 condition
      ++ ⟨o.line depth ("if " ++ conditionText o condition ++ ":"), depth + 1, body⟩
      :: body.suites o (depth + 1) ++ next.suites o depth
  | .whileLoop condition body =>
    suitesOf o 0 condition
      ++ ⟨o.line depth ("while " ++ conditionText o condition ++ ":"), depth + 1, body⟩
      :: body.suites o (depth + 1)
  | .method _ name args body =>
    ⟨o.line depth ("def " ++ name ++ "(" ++ ", ".intercalate (parameterNames args) ++ "):"),
      depth + 1, .block body⟩ :: suitesOf o (depth + 1) body
  | .returnExpr value => suitesOf o 0 value
  | .call _ args => keptSuites o args

/-- The suites of nodes in the same position. -/
def suitesOf (o : Options) (depth : Nat) : List Node → List Suite
  | [] => []
  | node :: nodes => node.suites o depth ++ suitesOf o depth nodes

/-- The suites of the arguments that a call keeps. -/
def keptSuites (o : Options) : List Node → List Suite
  | [] => []
  | arg :: args =>
    if o.callArguments.fate arg = .kept then arg.suites o 0 ++ keptSuites o args
    else keptSuites o args

/-- The suites within a body. -/
def Body.suites (o : Options) (depth : Nat) : Body → List Suite
  | .absent => []
  | .block nodes => suitesOf o depth nodes
  | .single node => node.suites o depth

/-- The suites of the clauses after an `if`. -/
def Continuation.suites (o : Options) (depth : Nat) : Continuation → List Suite
  | .done => []
  | .elif condition body next =>
    suitesOf o 0 condition
      ++ ⟨o.line depth ("elif " ++ conditionText o condition ++ ":"), depth + 1, body⟩
      :: body.suites o (depth + 1) ++ next.suites o depth
  | .otherwise body =>
    ⟨o.line depth "else:", depth + 1, body⟩ :: body.suites o (depth + 1)

end

/-- The suites that a program is rendered with. -/
def Program.suites (o : Options) (p : Program) : List Suite := suitesOf o 0 p.body

/-! ## What suites show -/

/-- The text of what is in a body, before anything stands in for it. -/
def Body.innerText (o : Options) (depth : Nat) : Body → String
  | absent => ""
  | block nodes => o.stackNonEmpty (renderEach o depth nodes).value
  | single node => (node.render o depth).value

/-- **A body is blank** if there are words standing in it and none of them shows
anything. -/
def Body.IsBlank (body : Body) : Prop := body.words ≠ [] ∧ ∀ word ∈ body.words, ¬ Shows word

instance Body.decidableIsBlank : DecidablePred Body.IsBlank := fun body =>
  inferInstanceAs (Decidable (body.words ≠ [] ∧ ∀ word ∈ body.words, ¬ Shows word))

theorem Body.not_isBlank_iff {body : Body} :
    ¬ body.IsBlank ↔ body.words = [] ∨ ∃ word ∈ body.words, Shows word := by
  simp only [IsBlank, not_and_or, not_not, not_forall, exists_prop]

section Shown

variable {o : Options}

theorem Body.value_render (body : Body) (depth : Nat) :
    (body.render o depth).value = o.suite depth (body.innerText o depth) := by
  cases body <;> rfl

/-- The text of a body carries its words. -/
theorem Body.carries_innerText (body : Body) (depth : Nat) :
    Carries body.words (body.innerText o depth) := by
  cases body with
  | absent => exact .nil
  | block nodes => exact carries_renderEach o true o.not_shows_lineEnding nodes depth (Or.inl rfl)
  | single node => exact node.carries_render o true depth (Or.inl rfl)

/-- **A body is one text**, if empty bodies are filled in. -/
theorem Options.suite_of_passEmptyBodies (hpass : o.passEmptyBodies = true) (depth : Nat)
    (text : String) :
    o.suite depth text = [if text = "" then o.line depth "pass" else text] := by
  unfold suite
  by_cases h : text = ""
  · rw [if_neg (not_not_intro h), if_pos hpass, if_pos h]
  · rw [if_pos h, if_neg h]

namespace Suite

/-- The text of a suite is that of its body, or `pass`. -/
theorem text_eq (hpass : o.passEmptyBodies = true) (s : Suite) :
    s.text o = if s.body.innerText o s.depth = "" then o.line s.depth "pass"
      else s.body.innerText o s.depth := by
  rw [text, Body.value_render, Options.suite_of_passEmptyBodies hpass, Options.stack,
    String.intercalate_singleton]

/-- **A suite without words is `pass`.** -/
theorem text_eq_pass (hpass : o.passEmptyBodies = true) (s : Suite) (h : s.body.words = []) :
    s.text o = o.line s.depth "pass" := by
  rw [text_eq hpass, if_pos ((s.body.carries_innerText s.depth).eq_empty h)]

/-- **A suite shows something** unless its body is blank. -/
theorem shows_text (hpass : o.passEmptyBodies = true) (s : Suite) (h : ¬ s.body.IsBlank) :
    Shows (s.text o) := by
  have hcarries := s.body.carries_innerText (o := o) s.depth
  rcases Body.not_isBlank_iff.mp h with hnil | hshows
  · rw [text_eq_pass hpass s hnil, o.shows_line]
    decide
  · have htext := hcarries.shows_iff.mpr hshows
    rwa [text_eq hpass, if_neg htext.ne_empty]

/-- **A suite whose body is blank shows nothing**, if no word in it is empty: there is a
text, and nothing stands in for it. -/
theorem not_shows_text (hpass : o.passEmptyBodies = true) (s : Suite) (h : s.body.IsBlank)
    (hempty : "" ∉ s.body.words) : ¬ Shows (s.text o) := by
  have hcarries := s.body.carries_innerText (o := o) s.depth
  rw [text_eq hpass, if_neg (hcarries.ne_empty h.1 hempty), hcarries.shows_iff]
  rintro ⟨word, hword, hshows⟩
  exact h.2 word hword hshows

end Suite

end Shown

end Offside
