import Offside.Proofs.Layout.Suites
import Offside.Proofs.Reading.Outcome

/-!
# The headers that stand in a text

A header is told by who has written it and not by how it looks: a token that reads
`while z:` is written as it is, and no header. So the text of a program is taken apart into
**passages**, each of which says where it comes from: a word of the program, a mark of the
layout, or a header with what is written below it. There is no other way for a header to
get into a text, and a header has a suite because its passage has one.

What a program is laid out as (`Program.passages`) is its text when it is written out, and
the headers in it are those of the suites of the program, in order, each of them with the
text of its suite below it. That is said of passages and a text at once (`Records`), and is
kept by everything that a layout is put together with. So each header that stands in a
text, within expressions as well, is followed by a suite that shows something, unless its
body is blank (`Program.suites_show`).

All of this is about layouts that fill empty bodies in.
-/

namespace Offside

/-! ## Passages -/

/-- **What a layout writes of its own accord**, headers apart. There is no colon in it, so
that a header is not put together of marks. -/
inductive Mark where
  /-- The indentation of a line. -/
  | indent (depth : Nat)
  /-- What stands between the words of an expression. -/
  | space
  /-- What stands between arguments. -/
  | comma
  /-- What stands before arguments. -/
  | opening
  /-- What stands behind arguments. -/
  | closing
  /-- What stands between lines. -/
  | ending
  /-- What a function answers with. -/
  | returning
  /-- What is filled in for a body without text. -/
  | pass
  deriving Repr, DecidableEq

/-- The text of a mark. -/
def Mark.text (o : Options) : Mark → String
  | indent depth => o.indent depth
  | space => " "
  | comma => ", "
  | opening => "("
  | closing => ")"
  | ending => o.lineEnding.text
  | returning => "return"
  | pass => "pass"

/-- **What a header starts with.** -/
inductive Heading where
  | conditional
  | elif
  | otherwise
  | whileLoop
  | method
  deriving Repr, DecidableEq

/-- The text of what a header starts with. -/
def Heading.text : Heading → String
  | conditional => "if "
  | elif => "elif "
  | otherwise => "else"
  | whileLoop => "while "
  | method => "def "

/-- **A header**, with what stands between its start and its colon. -/
def Heading.header (o : Options) (heading : Heading) (depth : Nat) (inner : String) : String :=
  o.line depth (heading.text ++ inner ++ ":")

/-- **A passage of a text.** -/
inductive Passage where
  /-- A word of the program. -/
  | word (text : String)
  /-- A mark of the layout. -/
  | mark (m : Mark)
  /-- A header, and what is written below it. -/
  | suite (heading : Heading) (depth : Nat) (inner below : List Passage)

namespace Passage

variable (o : Options)

mutual

/-- **The text of a passage.** Between a header and what is below it there is a line
ending. -/
def written : Passage → String
  | .word text => text
  | .mark m => m.text o
  | .suite heading depth inner below =>
    heading.header o depth (writtenAll inner) ++ o.lineEnding.text ++ writtenAll below

/-- The text of passages, one after the other. -/
def writtenAll : List Passage → String
  | [] => ""
  | p :: ps => p.written ++ writtenAll ps

end

mutual

/-- **The headers in a passage**, each with the text that is written below it. -/
def blocks : Passage → List (String × String)
  | .word _ | .mark _ => []
  | .suite heading depth inner below =>
    blocksAll inner
      ++ (heading.header o depth (writtenAll o inner), writtenAll o below) :: blocksAll below

/-- The headers in passages. -/
def blocksAll : List Passage → List (String × String)
  | [] => []
  | p :: ps => p.blocks ++ blocksAll ps

end

mutual

/-- **The words in a passage.** -/
def words : Passage → List String
  | .word text => [text]
  | .mark _ => []
  | .suite _ _ inner below => wordsAll inner ++ wordsAll below

/-- The words in passages. -/
def wordsAll : List Passage → List String
  | [] => []
  | p :: ps => p.words ++ wordsAll ps

end

@[simp] theorem writtenAll_append (ps qs : List Passage) :
    writtenAll o (ps ++ qs) = writtenAll o ps ++ writtenAll o qs := by
  induction ps with
  | nil => rw [List.nil_append, writtenAll, String.empty_append]
  | cons p ps ih => rw [List.cons_append, writtenAll, ih, writtenAll, String.append_assoc]

@[simp] theorem blocksAll_append (ps qs : List Passage) :
    blocksAll o (ps ++ qs) = blocksAll o ps ++ blocksAll o qs := by
  induction ps with
  | nil => rfl
  | cons p ps ih => rw [List.cons_append, blocksAll, ih, blocksAll, List.append_assoc]

@[simp] theorem wordsAll_append (ps qs : List Passage) :
    wordsAll (ps ++ qs) = wordsAll ps ++ wordsAll qs := by
  induction ps with
  | nil => rfl
  | cons p ps ih => rw [List.cons_append, wordsAll, ih, wordsAll, List.append_assoc]

variable {o}

/-- There is no header in an empty text. -/
theorem blocksAll_eq_nil {ps : List Passage} (h : writtenAll o ps = "") : blocksAll o ps = [] := by
  induction ps with
  | nil => rfl
  | cons p ps ih =>
    obtain ⟨hp, hps⟩ := String.append_eq_empty_iff.mp h
    rw [blocksAll, ih hps, List.append_nil]
    cases p with
    | word | mark => rfl
    | suite heading depth inner below => simp [written, Heading.header, Options.line] at hp

/-! ## What is written below headers -/

mutual

/-- **A header is written with its suite directly below it.** -/
theorem block_written : ∀ p : Passage, ∀ block ∈ p.blocks o,
    (block.1 ++ o.lineEnding.text ++ block.2).toList <:+: (p.written o).toList
  | .word _ => List.forall_mem_nil _
  | .mark _ => List.forall_mem_nil _
  | .suite heading depth inner below => fun block hblock => by
    rw [blocks, List.mem_append, List.mem_cons] at hblock
    rcases hblock with hinner | rfl | hbelow
    · refine (block_writtenAll inner block hinner).trans ?_
      exact ⟨(o.indent depth ++ heading.text).toList,
        (":" ++ o.lineEnding.text ++ writtenAll o below).toList,
        by simp [written, Heading.header, Options.line]⟩
    · exact List.infix_rfl
    · refine (block_writtenAll below block hbelow).trans ?_
      rw [written, String.toList_append]
      exact List.infix_append_right

theorem block_writtenAll : ∀ ps : List Passage, ∀ block ∈ blocksAll o ps,
    (block.1 ++ o.lineEnding.text ++ block.2).toList <:+: (writtenAll o ps).toList
  | [] => List.forall_mem_nil _
  | p :: ps => fun block hblock => by
    rw [blocksAll, List.mem_append] at hblock
    rcases hblock with hp | hps
    · refine (block_written p block hp).trans ?_
      rw [writtenAll, String.toList_append]
      exact (List.prefix_append _ _).isInfix
    · refine (block_writtenAll ps block hps).trans ?_
      rw [writtenAll, String.toList_append]
      exact List.infix_append_right

end

end Passage

open Passage

/-! ## A program as passages -/

section Passages

variable (o : Options)

/-- **Passages one after the other**, with `separator` between them, without those that
have no text. -/
def joinPassages (separator : Mark) : List (List Passage) → List Passage
  | [] => []
  | ps :: rest =>
    if writtenAll o ps = "" then joinPassages separator rest
    else if writtenAll o (joinPassages separator rest) = "" then ps
    else ps ++ .mark separator :: joinPassages separator rest

/-- Passages behind a mark, which is left out if they have no text. -/
def leadPassages (m : Mark) (ps : List Passage) : List Passage :=
  if writtenAll o ps = "" then [] else .mark m :: ps

/-- The passages of a body, or `pass` if they have no text. -/
def fillPassages (depth : Nat) (ps : List Passage) : List Passage :=
  if writtenAll o ps = "" then [.mark (.indent depth), .mark .pass] else ps

/-- The passages of tokens. -/
def tokenPassages (tokens : List String) : List Passage :=
  joinPassages o .space (tokens.map fun token => [.word token])

/-- The passages of parameters. -/
def parameterPassages : List String → List Passage
  | [] => []
  | [name] => [.word name]
  | name :: next :: names => .word name :: .mark .comma :: parameterPassages (next :: names)

mutual

/-- **The passages of a node at `depth`.** -/
def Node.passages (depth : Nat) : Node → List Passage
  | .sequence _ nodes => joinPassages o .ending (passagesEach depth nodes)
  | .wrapper _ inner => inner.passages depth
  | .declaration d => [.mark (.indent depth), .word d.name]
  | .assignment target op value =>
    [.mark (.indent depth), .word target.boundName, .mark .space, .word op, .mark .space]
      ++ joinPassages o .space (passagesEach 0 value)
  | .expression parts =>
    leadPassages o (.indent depth) (joinPassages o .space (passagesEach 0 parts))
  | .operator tokens | .literal tokens => leadPassages o (.indent depth) (tokenPassages o tokens)
  | .conditional condition body next =>
    .suite .conditional depth (joinPassages o .space (passagesEach 0 condition))
      (body.passages (depth + 1)) :: next.passages depth
  | .whileLoop condition body =>
    [.suite .whileLoop depth (joinPassages o .space (passagesEach 0 condition))
      (body.passages (depth + 1))]
  | .method _ name args body =>
    [.suite .method depth
      ([.word name, .mark .opening] ++ parameterPassages (parameterNames args)
        ++ [.mark .closing])
      (fillPassages o (depth + 1) (joinPassages o .ending (passagesEach (depth + 1) body)))]
  | .returnExpr value =>
    [.mark (.indent depth), .mark .returning]
      ++ leadPassages o .space (joinPassages o .space (passagesEach 0 value))
  | .call name args =>
    leadPassages o (.indent depth)
      ([.word name, .mark .opening] ++ joinPassages o .comma (argumentPassages args)
        ++ [.mark .closing])
  | .token _ => []

/-- The passages of nodes in the same position. -/
def passagesEach (depth : Nat) : List Node → List (List Passage)
  | [] => []
  | node :: nodes => node.passages depth :: passagesEach depth nodes

/-- The passages of the arguments that a call keeps. -/
def argumentPassages : List Node → List (List Passage)
  | [] => []
  | arg :: args =>
    if o.callArguments.fate arg = .kept then arg.passages 0 :: argumentPassages args
    else argumentPassages args

/-- The passages of a body, which is filled in if it has no text. -/
def Body.passages (depth : Nat) : Body → List Passage
  | .absent => fillPassages o depth []
  | .block nodes => fillPassages o depth (joinPassages o .ending (passagesEach depth nodes))
  | .single node => fillPassages o depth (node.passages depth)

/-- The passages of the clauses after an `if`, each of them on a line of its own. -/
def Continuation.passages (depth : Nat) : Continuation → List Passage
  | .done => []
  | .elif condition body next =>
    [.mark .ending, .suite .elif depth (joinPassages o .space (passagesEach 0 condition))
      (body.passages (depth + 1))] ++ next.passages depth
  | .otherwise body => [.mark .ending, .suite .otherwise depth [] (body.passages (depth + 1))]

end

/-- **The passages of a program.** -/
def Program.passages (p : Program) : List Passage :=
  joinPassages o .ending (passagesEach o 0 p.body)

end Passages

/-! ## What is joined -/

section Join

variable {o : Options} (separator : Mark)

theorem writtenAll_joinPassages (pss : List (List Passage)) :
    writtenAll o (joinPassages o separator pss)
      = joinNonEmpty (separator.text o) (pss.map (writtenAll o)) := by
  induction pss with
  | nil => rfl
  | cons ps pss ih =>
    rw [joinPassages, List.map_cons, joinNonEmpty_cons, ← ih]
    split
    · rfl
    · split
      · rfl
      · rw [writtenAll_append, writtenAll, written, String.append_assoc]

/-- Passages without a text are not missed: there is no header in them. -/
theorem blocksAll_joinPassages (pss : List (List Passage)) :
    blocksAll o (joinPassages o separator pss) = pss.flatMap (blocksAll o) := by
  induction pss with
  | nil => rfl
  | cons ps pss ih =>
    rw [joinPassages, List.flatMap_cons, ← ih]
    split
    case isTrue hps => rw [blocksAll_eq_nil hps, List.nil_append]
    case isFalse =>
      split
      case isTrue hrest => rw [blocksAll_eq_nil hrest, List.append_nil]
      case isFalse => rw [blocksAll_append, blocksAll, blocks, List.nil_append]

theorem wordsAll_joinPassages (pss : List (List Passage)) :
    wordsAll (joinPassages o separator pss) ⊆ pss.flatMap wordsAll := by
  induction pss with
  | nil => exact List.nil_subset _
  | cons ps pss ih =>
    rw [joinPassages, List.flatMap_cons]
    split
    · exact List.subset_append_of_subset_right _ ih
    · split
      · exact List.subset_append_left _ _
      · rw [wordsAll_append, wordsAll, Passage.words, List.nil_append]
        exact List.append_subset.mpr
          ⟨List.subset_append_left _ _, List.subset_append_of_subset_right _ ih⟩

/-- The parameters of a function are joined as they are. -/
theorem writtenAll_parameterPassages (names : List String) :
    writtenAll o (parameterPassages names) = ", ".intercalate names := by
  induction names with
  | nil => rfl
  | cons name names ih =>
    cases names with
    | nil => rw [String.intercalate_singleton]; exact String.append_empty
    | cons next names =>
      rw [parameterPassages, writtenAll, writtenAll, ih, String.intercalate_cons_cons, written,
        written, Mark.text, String.append_assoc]

theorem blocksAll_parameterPassages (names : List String) :
    blocksAll o (parameterPassages names) = [] := by
  induction names with
  | nil => rfl
  | cons name names ih =>
    cases names with
    | nil => rfl
    | cons next names => exact ih

theorem wordsAll_parameterPassages (names : List String) :
    wordsAll (parameterPassages names) = names := by
  induction names with
  | nil => rfl
  | cons name names ih =>
    cases names with
    | nil => rfl
    | cons next names => exact congrArg (List.cons name) ih

end Join

/-! ## What passages record -/

/-- **A header and the text that is written below it.** -/
def Suite.block (o : Options) (s : Suite) : String × String := (s.header, s.text o)

/-- **Passages record a text** with the suites that are written in it, of words that are
among some. -/
structure Records (o : Options) (ps : List Passage) (text : String) (suites : List Suite)
    (words : List String) : Prop where
  /-- The passages are the text. -/
  written_eq : writtenAll o ps = text
  /-- The headers in the passages are those of the suites, in order. -/
  blocks_eq : blocksAll o ps = suites.map (Suite.block o)
  /-- No word is new. -/
  words_subset : wordsAll ps ⊆ words

/-- Passages of several texts record them. -/
structure RecordsEach (o : Options) (pss : List (List Passage)) (texts : List String)
    (suites : List Suite) (words : List String) : Prop where
  /-- The passages of each text are the text. -/
  written_eq : pss.map (writtenAll o) = texts
  /-- The headers in the passages are those of the suites, in order. -/
  blocks_eq : pss.flatMap (blocksAll o) = suites.map (Suite.block o)
  /-- No word is new. -/
  words_subset : pss.flatMap wordsAll ⊆ words

section Records

variable {o : Options} {ps qs : List Passage} {pss : List (List Passage)} {text text' : String}
  {texts : List String} {suites suites' : List Suite} {words words' : List String}

namespace Records

theorem nil (words : List String) : Records o [] "" [] words :=
  ⟨rfl, rfl, List.nil_subset _⟩

theorem mono (h : Records o ps text suites words) (hwords : words ⊆ words') :
    Records o ps text suites words' :=
  ⟨h.written_eq, h.blocks_eq, List.Subset.trans h.words_subset hwords⟩

theorem append (h : Records o ps text suites words) (h' : Records o qs text' suites' words) :
    Records o (ps ++ qs) (text ++ text') (suites ++ suites') words where
  written_eq := by rw [writtenAll_append, h.written_eq, h'.written_eq]
  blocks_eq := by rw [blocksAll_append, h.blocks_eq, h'.blocks_eq, List.map_append]
  words_subset := by
    rw [wordsAll_append]
    exact List.append_subset.mpr ⟨h.words_subset, h'.words_subset⟩

theorem mark (m : Mark) (words : List String) : Records o [.mark m] (m.text o) [] words :=
  ⟨String.append_empty, rfl, List.nil_subset _⟩

/-- A mark at the end brings no suite. -/
theorem append_mark (h : Records o ps text suites words) (m : Mark) :
    Records o (ps ++ [.mark m]) (text ++ m.text o) suites words := by
  have hm := h.append (mark m words)
  rwa [List.append_nil] at hm

theorem word {word : String} (h : word ∈ words) : Records o [.word word] word [] words :=
  ⟨String.append_empty, rfl, List.cons_subset.mpr ⟨h, List.nil_subset _⟩⟩

/-- Where there is no text there are no suites. -/
theorem suites_eq_nil (h : Records o ps "" suites words) : suites = [] :=
  List.map_eq_nil_iff.mp (h.blocks_eq ▸ blocksAll_eq_nil h.written_eq)

/-- A text behind a mark, which is left out with it. -/
theorem lead (h : Records o ps text suites words) (m : Mark) :
    Records o (leadPassages o m ps) (if text = "" then "" else m.text o ++ text) suites words := by
  rw [leadPassages, h.written_eq]
  by_cases ht : text = ""
  · subst ht
    rw [if_pos rfl, if_pos rfl, h.suites_eq_nil]
    exact nil words
  · rw [if_neg ht, if_neg ht]
    exact (mark m words).append h

/-- What is filled in has no suites, and stands in for nothing that has. -/
theorem fill (h : Records o ps text suites words) (hpass : o.passEmptyBodies = true)
    (depth : Nat) :
    Records o (fillPassages o depth ps) (o.stack (o.suite depth text)) suites words := by
  rw [fillPassages, h.written_eq, Options.suite_of_passEmptyBodies hpass, Options.stack,
    String.intercalate_singleton]
  by_cases ht : text = ""
  · subst ht
    rw [if_pos rfl, if_pos rfl, h.suites_eq_nil]
    exact (mark (.indent depth) words).append (mark .pass words)
  · rw [if_neg ht, if_neg ht]
    exact h

/-- **A header and its suite** are one more suite, behind those in the header and before
those below it. -/
theorem clause {s : Suite} {heading : Heading} {depth : Nat}
    (hinner : Records o ps text suites words) (hbelow : Records o qs (s.text o) suites' words)
    (hheader : s.header = heading.header o depth text) :
    Records o [.suite heading depth ps qs] (s.header ++ o.lineEnding.text ++ s.text o)
      (suites ++ s :: suites') words where
  written_eq := by
    rw [writtenAll, written, hinner.written_eq, hbelow.written_eq, hheader]
    exact String.append_empty
  blocks_eq := by
    rw [blocksAll, blocks, hinner.written_eq, hbelow.written_eq, hinner.blocks_eq,
      hbelow.blocks_eq, List.map_append, List.map_cons, Suite.block, hheader]
    exact List.append_nil _
  words_subset := by
    rw [wordsAll, Passage.words, wordsAll, List.append_nil]
    exact List.append_subset.mpr ⟨hinner.words_subset, hbelow.words_subset⟩

end Records

namespace RecordsEach

theorem nil (words : List String) : RecordsEach o [] [] [] words :=
  ⟨rfl, rfl, List.nil_subset _⟩

theorem cons (h : Records o ps text suites words) (h' : RecordsEach o pss texts suites' words) :
    RecordsEach o (ps :: pss) (text :: texts) (suites ++ suites') words where
  written_eq := by rw [List.map_cons, h.written_eq, h'.written_eq]
  blocks_eq := by rw [List.flatMap_cons, h.blocks_eq, h'.blocks_eq, List.map_append]
  words_subset := by
    rw [List.flatMap_cons]
    exact List.append_subset.mpr ⟨h.words_subset, h'.words_subset⟩

theorem mono (h : RecordsEach o pss texts suites words) (hwords : words ⊆ words') :
    RecordsEach o pss texts suites words' :=
  ⟨h.written_eq, h.blocks_eq, List.Subset.trans h.words_subset hwords⟩

theorem join (h : RecordsEach o pss texts suites words) (separator : Mark) :
    Records o (joinPassages o separator pss) (joinNonEmpty (separator.text o) texts) suites
      words where
  written_eq := by rw [writtenAll_joinPassages, h.written_eq]
  blocks_eq := by rw [blocksAll_joinPassages, h.blocks_eq]
  words_subset := List.Subset.trans (wordsAll_joinPassages separator pss) h.words_subset

end RecordsEach

/-- Tokens are recorded one by one. -/
theorem records_tokens (tokens : List String) :
    Records o (tokenPassages o tokens) (joinNonEmpty " " tokens) [] tokens := by
  have heach : RecordsEach o (tokens.map fun token => [.word token]) tokens [] tokens := by
    refine ⟨?_, ?_, ?_⟩
    · simp [Function.comp_def, writtenAll, written]
    · simp [List.flatMap_map, blocksAll, blocks]
    · simp [List.flatMap_map, wordsAll, Passage.words]
  exact heach.join .space

/-- Parameters are recorded, and there is no header in them. -/
theorem records_parameters (args : List Node) :
    Records o (parameterPassages (parameterNames args)) (", ".intercalate (parameterNames args))
      [] (stringsOf args) where
  written_eq := writtenAll_parameterPassages _
  blocks_eq := blocksAll_parameterPassages _
  words_subset := by
    rw [wordsAll_parameterPassages]
    exact parameterNames_subset args

end Records

/-- **Lines below others**, with the line ending in front of them, if there are any. -/
def Options.stackBelow (o : Options) (lines : List String) : String :=
  if lines = [] then "" else o.lineEnding.text ++ o.stack lines

theorem Options.stack_append (o : Options) {lines : List String} (h : lines ≠ [])
    (others : List String) :
    o.stack (lines ++ others) = o.stack lines ++ o.stackBelow others := by
  unfold stackBelow
  by_cases ho : others = []
  · rw [if_pos ho, ho, List.append_nil, String.append_empty]
  · rw [if_neg ho, stack, stack, stack, String.intercalate_append_of_ne_nil h ho,
      String.append_assoc]

/-- A clause is its header and the text of its suite. -/
theorem Suite.stack_eq {o : Options} (hpass : o.passEmptyBodies = true) (s : Suite) :
    o.stack (s.header :: (s.body.render o s.depth).value)
      = s.header ++ o.lineEnding.text ++ s.text o := by
  rw [text, Body.value_render, Options.suite_of_passEmptyBodies hpass, Options.stack,
    Options.stack, String.intercalate_cons_cons, String.intercalate_singleton]

/-- A line that goes on. -/
theorem Options.line_append (o : Options) (depth : Nat) (text more : String) :
    o.line depth (text ++ more) = o.line depth text ++ more := by
  rw [line, line, String.append_assoc]

section Render

variable {o : Options}

section Clause

variable {condition : Expression} {body : Body} {depth : Nat} (heading : Heading)
  (hcondition : RecordsEach o (passagesEach o 0 condition) (renderEach o 0 condition).value
    (suitesOf o 0 condition) (stringsOf condition))
  (hbody : Records o (body.passages o (depth + 1)) (o.stack (body.render o (depth + 1)).value)
    (body.suites o (depth + 1)) body.strings)

include hcondition hbody

/-- **A clause with a condition** is recorded with what is in the condition and in the body. -/
theorem records_clause (hpass : o.passEmptyBodies = true) :
    Records o
      [.suite heading depth (joinPassages o .space (passagesEach o 0 condition))
        (body.passages o (depth + 1))]
      (o.stack (heading.header o depth (conditionText o condition)
        :: (body.render o (depth + 1)).value))
      (suitesOf o 0 condition
        ++ ⟨heading.header o depth (conditionText o condition), depth + 1, body⟩
        :: body.suites o (depth + 1))
      (stringsOf condition ++ body.strings) := by
  have hstack := Suite.stack_eq hpass
    ⟨heading.header o depth (conditionText o condition), depth + 1, body⟩
  rw [hstack]
  exact .clause ((hcondition.join .space).mono (List.subset_append_left _ _))
    (hbody.mono (List.subset_append_right _ _)) rfl

/-- **A clause and those after it.** -/
theorem records_branch (hpass : o.passEmptyBodies = true) {next : Continuation}
    (hnext : Records o (next.passages o depth) (o.stackBelow (next.render o depth).value)
      (next.suites o depth) next.strings) :
    Records o
      (.suite heading depth (joinPassages o .space (passagesEach o 0 condition))
        (body.passages o (depth + 1)) :: next.passages o depth)
      (o.stack (heading.header o depth (conditionText o condition)
        :: (body.render o (depth + 1)).value ++ (next.render o depth).value))
      (suitesOf o 0 condition
        ++ ⟨heading.header o depth (conditionText o condition), depth + 1, body⟩
        :: body.suites o (depth + 1) ++ next.suites o depth)
      (stringsOf condition ++ body.strings ++ next.strings) := by
  have hclause := records_clause heading hcondition hbody hpass
  rw [o.stack_append (List.cons_ne_nil _ _)]
  exact (hclause.mono (List.subset_append_left _ _)).append
    (hnext.mono (List.subset_append_right _ _))

end Clause

mutual

/-- **The passages of a node record its text.** -/
theorem Node.records_render (hpass : o.passEmptyBodies = true) : ∀ (node : Node) (depth : Nat),
    Records o (node.passages o depth) (node.render o depth).value (node.suites o depth)
      node.strings
  | .sequence _ nodes, depth => (recordsEach_render hpass nodes depth).join .ending
  | .wrapper _ inner, depth => Node.records_render hpass inner depth
  | .declaration d, depth =>
    (Records.mark (.indent depth) _).append (.word (List.mem_cons_of_mem _ List.mem_cons_self))
  | .assignment target op value, depth => by
    have hvalue := ((recordsEach_render hpass value 0).join .space).mono
      (List.subset_append_right (target.strings ++ [op]) (stringsOf value))
    have hstart : Records o
        [.mark (.indent depth), .word target.boundName, .mark .space, .word op, .mark .space]
        (o.line depth (target.boundName ++ " " ++ op ++ " ")) []
        (target.strings ++ [op] ++ stringsOf value) := by
      refine ⟨?_, rfl, ?_⟩
      · simp [writtenAll, written, Mark.text, Options.line, String.append_assoc]
      · simp [wordsAll, Passage.words, target.boundName_mem_strings]
    have h := hstart.append hvalue
    rw [← Options.line_append, List.append_assoc] at h
    exact h
  | .expression parts, depth =>
    ((recordsEach_render hpass parts 0).join .space).lead (.indent depth)
  | .operator tokens, depth => (records_tokens tokens).lead (.indent depth)
  | .literal tokens, depth => (records_tokens tokens).lead (.indent depth)
  | .conditional condition body next, depth =>
    records_branch .conditional (recordsEach_render hpass condition 0)
      (Body.records_render hpass body (depth + 1)) hpass
      (Continuation.records_render hpass next depth)
  | .whileLoop condition body, depth =>
    records_clause .whileLoop (recordsEach_render hpass condition 0)
      (Body.records_render hpass body (depth + 1)) hpass
  | .method returnType name args body, depth => by
    have hbody := ((recordsEach_render hpass body (depth + 1)).join .ending).fill hpass (depth + 1)
    have hname : Records o [.word name, .mark .opening] (name ++ "(") []
        (returnType :: name :: stringsOf args ++ stringsOf body) :=
      (Records.word (by simp)).append (.mark _ _)
    have hparameters := (records_parameters (o := o) args).mono
      (List.subset_append_of_subset_left (stringsOf body)
        (List.subset_append_right [returnType, name] (stringsOf args)))
    have hinner := (hname.append hparameters).append_mark .closing
    have hheader : o.line depth
          ("def " ++ name ++ "(" ++ ", ".intercalate (parameterNames args) ++ "):")
        = Heading.method.header o depth
          (name ++ "(" ++ ", ".intercalate (parameterNames args) ++ ")") := by
      simp [Heading.header, Heading.text, String.append_assoc]
    have hclause := Records.clause (s := ⟨_, depth + 1, .block body⟩) hinner
      (hbody.mono (List.subset_append_right _ _)) hheader
    rw [← Suite.stack_eq hpass] at hclause
    exact hclause
  | .returnExpr value, depth => by
    have hvalue := (recordsEach_render hpass value 0).join .space
    have hstart : Records o [.mark (.indent depth), .mark .returning] (o.line depth "return") []
        (stringsOf value) := (Records.mark _ _).append (.mark _ _)
    have htext : (Node.render o depth (.returnExpr value)).value
        = o.line depth "return" ++ if joinNonEmpty " " (renderEach o 0 value).value = "" then ""
          else " " ++ joinNonEmpty " " (renderEach o 0 value).value := by
      simp only [Node.render, Logged.value_bind, Logged.value_pure]
      rw [← Options.line_append]
      split
      · rfl
      · rw [← String.append_assoc]
        rfl
    rw [htext]
    exact hstart.append (hvalue.lead .space)
  | .call name args, depth => by
    have harguments := ((recordsEach_arguments hpass name args).join .comma).mono
      (List.subset_cons_self name (stringsOf args))
    have hname : Records o [.word name, .mark .opening] (name ++ "(") []
        (name :: stringsOf args) := (Records.word List.mem_cons_self).append (.mark _ _)
    exact ((hname.append harguments).append_mark .closing).lead (.indent depth)
  | .token _, _ => .nil _

/-- The passages of nodes in the same position record their texts. -/
theorem recordsEach_render (hpass : o.passEmptyBodies = true) :
    ∀ (nodes : List Node) (depth : Nat),
      RecordsEach o (passagesEach o depth nodes) (renderEach o depth nodes).value
        (suitesOf o depth nodes) (stringsOf nodes)
  | [], _ => .nil _
  | node :: nodes, depth =>
    .cons ((Node.records_render hpass node depth).mono (List.subset_append_left _ _))
      ((recordsEach_render hpass nodes depth).mono (List.subset_append_right _ _))

/-- The passages of the arguments that a call keeps record their texts. -/
theorem recordsEach_arguments (hpass : o.passEmptyBodies = true) (callee : String) :
    ∀ args : List Node,
      RecordsEach o (argumentPassages o args) (renderArguments o callee args).value
        (keptSuites o args) (stringsOf args)
  | [] => .nil _
  | arg :: args => by
    have ih := (recordsEach_arguments hpass callee args).mono
      (List.subset_append_right arg.strings (stringsOf args))
    rw [argumentPassages, keptSuites, renderArguments]
    cases hf : o.callArguments.fate arg with
    | kept =>
      rw [if_pos rfl, if_pos rfl]
      exact .cons ((Node.records_render hpass arg 0).mono (List.subset_append_left _ _)) ih
    | skipped => exact ih
    | dropped => exact ih

/-- The passages of a body record the text of its suite. -/
theorem Body.records_render (hpass : o.passEmptyBodies = true) : ∀ (body : Body) (depth : Nat),
    Records o (body.passages o depth) (o.stack (body.render o depth).value) (body.suites o depth)
      body.strings
  | .absent, depth => (Records.nil _).fill hpass depth
  | .block nodes, depth => ((recordsEach_render hpass nodes depth).join .ending).fill hpass depth
  | .single node, depth => (Node.records_render hpass node depth).fill hpass depth

/-- The passages of the clauses after an `if` record what stands below the first clause. -/
theorem Continuation.records_render (hpass : o.passEmptyBodies = true) :
    ∀ (next : Continuation) (depth : Nat),
      Records o (next.passages o depth) (o.stackBelow (next.render o depth).value)
        (next.suites o depth) next.strings
  | .done, _ => .nil _
  | .elif condition body next, depth =>
    (Records.mark .ending _).append
      (records_branch .elif (recordsEach_render hpass condition 0)
        (Body.records_render hpass body (depth + 1)) hpass
        (Continuation.records_render hpass next depth))
  | .otherwise body, depth => by
    have hstack := Suite.stack_eq hpass ⟨o.line depth "else:", depth + 1, body⟩
    have hheader : o.line depth "else:" = Heading.otherwise.header o depth "" := rfl
    have hclause := Records.clause (s := ⟨o.line depth "else:", depth + 1, body⟩)
      (Records.nil body.strings) (Body.records_render hpass body (depth + 1)) hheader
    rw [← hstack] at hclause
    exact (Records.mark .ending _).append hclause

end

/-- **The passages of a program record its text.** -/
theorem Program.records_render (hpass : o.passEmptyBodies = true) (p : Program) :
    Records o (p.passages o) (p.render o).value (p.suites o) p.strings :=
  (recordsEach_render hpass p.body 0).join .ending

end Render

/-- **Every header is followed by a suite that shows something**, with empty bodies filled
in.

* The text of a program is its passages, the words in which are strings of the program. So
  whatever else is in the text is a mark of the layout, or a header with what is directly
  below it.
* The headers in the passages, within expressions as well, are those of the suites of the
  program, in order, and below each is the text of its suite. A line ending stands between
  the two.
* A suite with no words in its body is `pass`, and a suite shows something unless its body
  is blank. With a blank body it shows nothing indeed, if no word in it is empty. -/
theorem Program.suites_show (o : Options) (p : Program) (hpass : o.passEmptyBodies = true) :
    (p.render o).value = writtenAll o (p.passages o)
      ∧ wordsAll (p.passages o) ⊆ p.strings
      ∧ blocksAll o (p.passages o) = (p.suites o).map (Suite.block o)
      ∧ ∀ s ∈ p.suites o,
        (s.header ++ o.lineEnding.text ++ s.text o).toList <:+: (p.render o).value.toList
          ∧ (s.body.words = [] → s.text o = o.line s.depth "pass")
          ∧ (¬ s.body.IsBlank → Shows (s.text o))
          ∧ (s.body.IsBlank → "" ∉ s.body.words → ¬ Shows (s.text o)) := by
  have hrecords := p.records_render hpass
  refine ⟨hrecords.written_eq.symm, hrecords.words_subset, hrecords.blocks_eq, fun s hs =>
    ⟨?_, s.text_eq_pass hpass, s.shows_text hpass, s.not_shows_text hpass⟩⟩
  have hblock : s.block o ∈ blocksAll o (p.passages o) := by
    rw [hrecords.blocks_eq]
    exact List.mem_map_of_mem hs
  rw [← hrecords.written_eq]
  exact block_writtenAll (p.passages o) (s.block o) hblock

/-- A function that assigns a conditional without a body, with a loop around a word that is
a space and one that is not. -/
def headerInValue : Program :=
  ⟨[.method "int" "f" []
    [.assignment (.name "x") "=" [.conditional [.literal ["a"]] .absent .done],
      .whileLoop [.literal ["b"]] (.block [.literal [" "], .literal ["c"]])]]⟩

/-- A loop whose body is a word of one space. -/
def spaceLoop : Program := ⟨[.whileLoop [.literal ["a"]] (.block [.literal [" "]])]⟩

/-- The header in the value has its suite below it, which is filled in. The loop around a
space has a suite that shows nothing. -/
theorem headerInValue_suites_show :
    ({} : Options).passEmptyBodies = true
      ∧ (∀ s ∈ headerInValue.suites {}, ¬ s.body.IsBlank)
      ∧ (headerInValue.render {}).value
        = "def f():\r\n    x = if a:\r\n    pass\r\n    while b:\r\n         \r\n        c"
      ∧ ["f", "x", "=", "a", "b", " ", "c"] ⊆ headerInValue.strings
      ∧ (headerInValue.suites {}).map (Suite.block {})
        = [("def f():", "    x = if a:\r\n    pass\r\n    while b:\r\n         \r\n        c"),
          ("if a:", "    pass"), ("    while b:", "         \r\n        c")]
      ∧ (∀ s ∈ headerInValue.suites {},
        (s.header ++ "\r\n" ++ s.text {}).toList <:+: (headerInValue.render {}).value.toList
          ∧ Shows (s.text {}))
      ∧ ∀ s ∈ spaceLoop.suites {}, s.body.IsBlank ∧ "" ∉ s.body.words ∧ ¬ Shows (s.text {}) := by
  have hblank : ∀ s ∈ headerInValue.suites {}, ¬ s.body.IsBlank := by decide
  have hwords : wordsAll (headerInValue.passages {}) = ["f", "x", "=", "a", "b", " ", "c"] := by
    decide
  obtain ⟨htext, hstrings, hblocks, hsuites⟩ := Program.suites_show {} headerInValue rfl
  obtain ⟨-, -, -, hspace⟩ := Program.suites_show {} spaceLoop rfl
  have hspaces : ∀ s ∈ spaceLoop.suites {}, s.body.IsBlank ∧ "" ∉ s.body.words := by decide
  refine ⟨rfl, hblank, htext.trans (by decide), hwords ▸ hstrings, hblocks.symm.trans (by decide),
    fun s hs => ?_, fun s hs => ?_⟩
  · obtain ⟨hplaced, -, hshows, -⟩ := hsuites s hs
    exact ⟨hplaced, hshows (hblank s hs)⟩
  · obtain ⟨-, -, -, hnothing⟩ := hspace s hs
    obtain ⟨hs, hempty⟩ := hspaces s hs
    exact ⟨hs, hempty, hnothing hs hempty⟩

/-- The loop around a space, as a parser hands it over. -/
def spaceLoopTree : ParseTree :=
  .rule "Start"
    [.rule "WhileCycle"
      [.rule "Expression" [.leaf "PrimaryLiteral" "a"],
        .rule "CodeBlock" [.leaf "PrimaryLiteral" " "]]]

/-- **A suite may show nothing** though empty bodies are filled in: a word of one
space is written as it is, and nothing stands in for it. -/
theorem not_forall_suites_show :
    ¬ ∀ (t : ParseTree) (p : Program) (o : Options), (Program.ofParseTree t).outcome = .ok p →
        o.passEmptyBodies = true → 1 ≤ o.indentWidth →
          ∀ block ∈ blocksAll o (p.passages o), Shows block.2 := by
  intro h
  have hread : (Program.ofParseTree spaceLoopTree).outcome = .ok spaceLoop := by rfl
  have hblock : ("while a:", "     ") ∈ blocksAll {} (spaceLoop.passages {}) := by decide
  have hshows := h spaceLoopTree spaceLoop {} hread rfl (by decide) _ hblock
  exact absurd hshows (by decide)

end Offside
