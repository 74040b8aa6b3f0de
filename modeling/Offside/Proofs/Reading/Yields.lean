import Offside.Proofs.ParseTree.Texts
import Offside.Proofs.Program.Singles
import Offside.Proofs.Program.Strings
import Offside.Proofs.Reading.Outcome

/-!
# What a reading yields

Whatever value a reading comes to may have a property, and if it comes to none
there is nothing to show. Properties that readings **yield** pass from the
parts of a reading to the whole (`Yields.bind`), so that an invariant of all
programs that are read is shown one rule at a time.

There are two invariants here, and they are shown together (`IsRead`). One is
about bodies without braces. A body is looked up as a statement first, and a
node of that rule is read as a statement, so that every body without braces in
a program that is read is one (`yields_ofParseTree`). The other is about words.
They are put together from the texts in the tree, so that they have what all
these texts have (`yields_strings_ofParseTree`).
-/

namespace Offside

namespace Reading

variable {α β : Type} {P : α → Prop} {Q : β → Prop}

/-! ## Yielding -/

/-- **Whatever value a reading comes to has the property.** -/
def Yields (reading : Reading α) (P : α → Prop) : Prop := ∀ a, reading.outcome = .ok a → P a

theorem yields_pure {a : α} (h : P a) : Yields (pure a) P := by
  rintro b ⟨⟩
  exact h

theorem yields_throw (d : Defect) : Yields (throw d : Reading α) P := nofun

theorem yields_true (reading : Reading α) : Yields reading (fun _ => True) := fun _ _ => trivial

namespace Yields

variable {reading : Reading α}

/-- A property of the first value is enough for the reading that uses it. -/
theorem bind {f : α → Reading β} (h : Yields reading P) (hf : ∀ a, P a → Yields (f a) Q) :
    Yields (reading >>= f) Q := by
  intro b hb
  rw [outcome_bind] at hb
  cases hr : reading.outcome with
  | error d =>
    rw [hr] at hb
    exact nomatch hb
  | ok a =>
    rw [hr] at hb
    exact hf a (h a hr) b hb

theorem and {R : α → Prop} (h : Yields reading P) (hR : Yields reading R) :
    Yields reading (fun a => P a ∧ R a) :=
  fun a ha => ⟨h a ha, hR a ha⟩

theorem map {g : α → β} (h : Yields reading P) (hg : ∀ a, P a → Q (g a)) :
    Yields (g <$> reading) Q := by
  rw [← bind_pure_comp]
  exact h.bind (fun a ha => yields_pure (hg a ha))

end Yields

/-- A child that is needed yields what reading it yields. -/
theorem yields_required {kind : String} {needed : NeededChild} {found : Option ParseTree}
    {read : ParseTree → Reading α} (h : ∀ t, found = some t → Yields (read t) P) :
    Yields (required kind needed (found.map read)) P := by
  cases found with
  | none => exact yields_throw _
  | some t => exact h t rfl

/-! ## What all parts of a program are like -/

/-- **What is read is like this**: bodies without braces are statements, and the
words have the property of the texts. -/
structure IsRead (P : String → Prop) (singles : List Node) (words : List String) : Prop where
  /-- The bodies without braces. -/
  statements : AllStatements singles
  /-- The words. -/
  words : ∀ word ∈ words, P word

namespace IsRead

variable {P : String → Prop} {ns ms : List Node} {ws vs : List String}

theorem of_words (h : ∀ word ∈ ws, P word) : IsRead P [] ws := ⟨allStatements_nil, h⟩

theorem nil : IsRead P [] [] := of_words (List.forall_mem_nil _)

theorem append (h : IsRead P ns ws) (h' : IsRead P ms vs) : IsRead P (ns ++ ms) (ws ++ vs) :=
  ⟨allStatements_append.mpr ⟨h.statements, h'.statements⟩,
    List.forall_mem_append.mpr ⟨h.words, h'.words⟩⟩

/-- One more word. -/
theorem word {w : String} (hw : P w) (h : IsRead P ns ws) : IsRead P ns (w :: ws) :=
  ⟨h.statements, List.forall_mem_cons.mpr ⟨hw, h.words⟩⟩

end IsRead

variable {P : String → Prop}

/-- **What the readings of a node yield**, whichever of them its parent asks
for. -/
structure YieldsRead (P : String → Prop) (t : ParseTree) : Prop where
  /-- The node in a place for statements and expressions. -/
  node : Yields (Reading.node t) (fun n => IsRead P n.singles n.strings)
  /-- All of its children in such places. -/
  nodes : Yields (Reading.nodes t.children) (fun ns => IsRead P (singlesOf ns) (stringsOf ns))
  /-- The body among its children. -/
  body : Yields (bodyOf t) (fun b => IsRead P b.singles b.strings)
  /-- The node as a conditional. -/
  conditional : Yields (conditionalOf t) (fun c => IsRead P c.singles c.strings)

theorem yields_nodes {trees : List ParseTree}
    (h : ∀ t ∈ trees, Yields (node t) (fun n => IsRead P n.singles n.strings)) :
    Yields (nodes trees) (fun ns => IsRead P (singlesOf ns) (stringsOf ns)) := by
  induction trees with
  | nil => exact yields_pure .nil
  | cons t ts ih =>
    rw [List.forall_mem_cons] at h
    rw [nodes]
    exact h.1.bind (fun first hfirst => (ih h.2).bind (fun rest hrest =>
      yields_pure (hfirst.append hrest)))

/-- A node of the rule for statements is read as a statement. -/
theorem yields_isStatement {t : ParseTree} (h : t.rule? = some .statement) :
    Yields (node t) Node.IsStatement := by
  obtain ⟨kind, text, children⟩ := t
  have hk : Rule.ofKind? kind = some .statement := h
  unfold node
  rw [hk]
  exact (yields_true _).map (fun inner _ => ⟨inner, rfl⟩)

/-- A terminal is read as source text. -/
theorem yields_terminal {kind : String} {children : List ParseTree} {t : Terminal}
    (h : ∀ child ∈ children, P child.sourceText) : Yields (terminal kind children t) P := by
  rw [terminal]
  cases hfind : children.find? (·.kind == t.kind) with
  | none => exact yields_throw _
  | some child => exact yields_pure (h child (List.mem_of_find?_eq_some hfind))

theorem yields_declaration {kind : String} {children : List ParseTree}
    (h : ∀ child ∈ children, P child.sourceText) :
    Yields (declaration kind children) (fun d => ∀ s ∈ d.strings, P s) :=
  (yields_terminal h).bind (fun _ hty => (yields_terminal h).bind (fun _ hname =>
    yields_pure (List.forall_mem_cons.mpr ⟨hty, List.forall_mem_singleton.mpr hname⟩)))

section Step

-- what is to be shown of a node, given its children
variable {t : ParseTree} (hP : KeptByAppend P) (htexts : ∀ s ∈ t.texts, P s)

include hP htexts

/-- The source text of each child. -/
theorem sourceText_of_mem_children : ∀ child ∈ t.children, P child.sourceText :=
  fun child hchild => child.sourceText_of_texts hP
    fun s hs => htexts s (ParseTree.texts_of_mem_children hchild s hs)

theorem yields_target :
    Yields (assignTarget t.kind t.children) (fun target => ∀ s ∈ target.strings, P s) := by
  have hchildren := sourceText_of_mem_children hP htexts
  cases hd : findRule .declaration t.children with
  | none =>
    rw [assignTarget_of_none _ hd]
    exact (yields_terminal hchildren).map (fun n hn => List.forall_mem_singleton.mpr hn)
  | some d =>
    rw [assignTarget_of_some _ hd]
    have hd' : ∀ s ∈ d.texts, P s :=
      fun s hs => htexts s (ParseTree.texts_of_mem_children (of_findRule hd).1 s hs)
    exact (yields_declaration (sourceText_of_mem_children hP hd')).map (fun _ h => h)

/-- The tokens of an operator or a literal are source texts. -/
theorem tokens_of_texts : ∀ s ∈ t.tokens, P s := by
  have hchildren := sourceText_of_mem_children hP htexts
  obtain ⟨kind, text, children⟩ := t
  cases children with
  | nil => exact fun s hs => htexts s (List.mem_append_left _ hs)
  | cons child children => exact List.forall_mem_map.mpr hchildren

omit hP htexts

variable (ih : ∀ child ∈ t.children, YieldsRead P child)

include ih

theorem yields_each :
    Yields (nodes t.children) (fun ns => IsRead P (singlesOf ns) (stringsOf ns)) :=
  yields_nodes (fun child hchild => (ih child hchild).node)

theorem yields_child (r : Rule) :
    Yields (required t.kind (.rule r) (nodesOf r t.children))
      (fun ns => IsRead P (singlesOf ns) (stringsOf ns)) := by
  rw [nodesOf_eq_map_findRule]
  exact yields_required (fun child hchild => (ih child (of_findRule hchild).1).nodes)

theorem yields_first :
    Yields (required t.kind .any (firstNode t.children))
      (fun n => IsRead P n.singles n.strings) := by
  rw [firstNode_eq_map_head?]
  exact yields_required (fun child hchild => (ih child (List.mem_of_mem_head? hchild)).node)

theorem yields_body : Yields (bodyOf t) (fun b => IsRead P b.singles b.strings) := by
  rw [bodyOf, statementOf_eq_map_findRule, nodesOf_eq_map_findRule]
  cases hs : findRule .statement t.children with
  | some s =>
    obtain ⟨hmem, hrule⟩ := of_findRule hs
    exact ((ih s hmem).node.and (yields_isStatement hrule)).map
      (fun n hn => ⟨List.forall_mem_cons.mpr ⟨hn.2, hn.1.statements⟩, hn.1.words⟩)
  | none =>
    cases hb : findRule .codeBlock t.children with
    | none => exact yields_pure .nil
    | some b => exact (ih b (of_findRule hb).1).nodes.map (fun _ h => h)

theorem yields_continuation :
    Yields (continuation t.kind (elifOf t.children) (elseOf t.children))
      (fun c => IsRead P c.singles c.strings) := by
  rw [elseOf_eq_map_findRule, elifOf_eq_map_findRule]
  cases he : findRule .conditionalElse t.children with
  | some final =>
    have hfinal : Yields (Continuation.otherwise <$> bodyOf final)
        (fun c => IsRead P c.singles c.strings) :=
      (ih final (of_findRule he).1).body.map (fun _ h => h)
    cases findRule .conditionalElif t.children with
    | none => exact hfinal
    | some branch => exact (yields_true _).bind (fun _ _ => hfinal)
  | none =>
    cases hb : findRule .conditionalElif t.children with
    | none => exact yields_pure .nil
    | some branch => exact (ih branch (of_findRule hb).1).conditional.map (fun _ h => h)

theorem yields_conditional :
    Yields (conditionalOf t) (fun c => IsRead P c.singles c.strings) := by
  rw [conditionalOf, conditional_eq_bind]
  refine (yields_continuation ih).bind (fun next hnext =>
    (yields_child ih .expression).bind (fun condition hcondition =>
      (yields_body ih).bind (fun body hbody => yields_pure ?_)))
  show IsRead P (_ ++ (_ ++ _)) (_ ++ _ ++ _)
  rw [← List.append_assoc]
  exact (hcondition.append hbody).append hnext

include hP htexts

theorem yields_node : Yields (node t) (fun n => IsRead P n.singles n.strings) := by
  have hterminal (k : Terminal) : Yields (terminal t.kind t.children k) P :=
    yields_terminal (sourceText_of_mem_children hP htexts)
  have hdeclaration : Yields (declaration t.kind t.children) (fun d => ∀ s ∈ d.strings, P s) :=
    yields_declaration (sourceText_of_mem_children hP htexts)
  have htarget := yields_target hP htexts
  have htokens := tokens_of_texts hP htexts
  have heach := yields_each ih
  have hfirst := yields_first ih
  have hchild := yields_child ih
  have hbody := yields_body ih
  have hconditional := yields_conditional ih
  obtain ⟨kind, text, children⟩ := t
  unfold node
  cases Rule.ofKind? kind with
  | none =>
    cases children with
    | nil =>
      refine yields_pure (.of_words (List.forall_mem_singleton.mpr ?_))
      cases text with
      | none => exact hP.empty
      | some word => exact htexts word List.mem_cons_self
    | cons child rest => exact yields_throw _
  | some r =>
    cases r with
    | start | conditionalElif | conditionalElse | args | argsCall => exact yields_throw _
    | statements | controlConstructs | codeBlock | expression =>
      exact heach.map (fun _ h => h)
    | statement | controlConstruct | cycle => exact hfirst.map (fun _ h => h)
    | declaration => exact hdeclaration.map (fun _ h => .of_words h)
    | operator | primaryLiteral => exact yields_pure (.of_words htokens)
    | returnExpr => exact (hchild .expression).map (fun _ h => h)
    | assignment =>
      exact htarget.bind (fun target htarget => (hterminal .assignmentOperator).bind (fun op hop =>
        (hchild .expression).bind (fun value hvalue =>
          yields_pure ((IsRead.of_words htarget).append (hvalue.word hop)))))
    | conditional => exact hconditional.map (fun _ h => h)
    | whileCycle =>
      exact (hchild .expression).bind (fun condition hcondition => hbody.bind (fun body h =>
        yields_pure (hcondition.append h)))
    | method =>
      exact (hterminal .type).bind (fun returnType htype => (hterminal .varName).bind
        (fun name hname => (hchild .args).bind (fun args hargs => (hchild .codeBlock).bind
          (fun block hblock => yields_pure (((hargs.append hblock).word hname).word htype)))))
    | funcCall =>
      exact (hterminal .varName).bind (fun name hname =>
        (hchild .argsCall).bind (fun args hargs => yields_pure (hargs.word hname)))

end Step

theorem yieldsRead (hP : KeptByAppend P) (t : ParseTree) (htexts : ∀ s ∈ t.texts, P s) :
    YieldsRead P t := by
  induction t using ParseTree.forall_of_children with | step t ih
  have ih' : ∀ child ∈ t.children, YieldsRead P child := fun child hchild =>
    ih child hchild fun s hs => htexts s (ParseTree.texts_of_mem_children hchild s hs)
  exact
    { node := yields_node hP htexts ih'
      nodes := yields_each ih'
      body := yields_body ih'
      conditional := yields_conditional ih' }

theorem yields_isRead (hP : KeptByAppend P) (t : ParseTree) (htexts : ∀ s ∈ t.texts, P s) :
    Yields (Program.ofParseTree t) (fun p => IsRead P p.singles p.strings) := by
  unfold Program.ofParseTree
  by_cases h : t.rule? = some .start
  · rw [if_pos h]
    exact (yieldsRead hP t htexts).nodes.map (fun _ h => h)
  · rw [if_neg h]
    exact yields_throw _

/-- **A program that is read has statements for all of its bodies without
braces.** -/
theorem yields_ofParseTree (t : ParseTree) :
    Yields (Program.ofParseTree t) (fun p => AllStatements p.singles) :=
  fun p hp => (yields_isRead (P := fun _ => True) ⟨trivial, fun _ _ => trivial⟩ t
    (fun _ _ => trivial) p hp).statements

/-- **What the texts of a tree have, the strings of the program have**, if it is
kept when texts are put together. -/
theorem yields_strings_ofParseTree (hP : KeptByAppend P) {t : ParseTree}
    (htexts : ∀ s ∈ t.texts, P s) :
    Yields (Program.ofParseTree t) (fun p => ∀ s ∈ p.strings, P s) :=
  fun p hp => (yields_isRead hP t htexts p hp).words

end Reading

end Offside
