import Mathlib
import Offside.Proofs.ParseTree.Texts
import Offside.Proofs.Reading.Outcome

/-!
# The case of a first letter

A rule is recognised by its name with the first letter in either case, and a parse
tree may spell every one of its nodes as it likes. A **respelling** of a tree
(`ParseTree.isRespelling`) has the first letters of some kinds in the other case,
where these kinds name rules, and is the same tree otherwise. It is read as the same
program, with as many events, or it has the same defect, said of the node at the same
place as that tree spells it (`ofParseTree_respelling`).

Two readings are **alike** (`Reading.Alike`) if they come to the same value or to the
same defect of two nodes at one place. This passes from the children of a node to the
node, since every look-up finds children at the same place in either tree: no
look-up tells the spellings of a rule apart, and none takes a rule for a terminal.

With a later letter in the other case a name of a rule is no name of a rule any more.
Folding the case of all letters keeps the rules apart (`Rule.foldedName_injective`),
so such a kind cannot name another rule either.
-/

namespace Offside

/-! ## Kinds in another spelling -/

/-- A letter in the other case. What is no ASCII letter is left as it is. -/
def otherCase (c : Char) : Char := if c.isUpper then c.toLower else c.toUpper

/-- **A kind with its first letter in the other case.** -/
def recased (kind : String) : String :=
  match kind.toList with
  | [] => ""
  | first :: rest => String.ofList (otherCase first :: rest)

/-- A letter in the other case has the same capital. -/
theorem toUpper_otherCase (c : Char) : (otherCase c).toUpper = c.toUpper := by
  unfold otherCase
  split
  · exact c.toUpper_toLower_eq_toUpper
  · exact c.toUpper_toUpper_eq_toUpper

namespace Rule

/-- The first letter does not matter where a kind is capitalised. -/
theorem capitalized_recased (kind : String) : capitalized (recased kind) = capitalized kind := by
  unfold recased capitalized
  cases kind.toList with
  | nil => rfl
  | cons first rest => simp only [String.toList_ofList, toUpper_otherCase]

/-- **A kind names the rule that it names with its first letter in the other case.** -/
@[simp] theorem ofKind?_recased (kind : String) : ofKind? (recased kind) = ofKind? kind := by
  rw [ofKind?, capitalized_recased, ofKind?]

/-- A kind of a rule is the name of the rule when it is capitalised. -/
theorem capitalized_of_ofKind? {kind : String} {r : Rule} (h : ofKind? kind = some r) :
    capitalized kind = r.name := by
  have hname := List.find?_some h
  exact (eq_of_beq hname).symm

/-- The name of a rule without regard to case. -/
def foldedName (r : Rule) : List Char := r.name.toList.map Char.toLower

/-- **No two rules have one name in different cases.** -/
theorem foldedName_injective {r s : Rule} (h : r.foldedName = s.foldedName) : r = s := by
  have hnodup : (all.map foldedName).Nodup := by decide +kernel
  exact List.inj_on_of_nodup_map hnodup (mem_all r) (mem_all s) h

/-- The case of a kind is that of its capitalised form, folded. -/
theorem map_toLower_capitalized (kind : String) :
    (capitalized kind).toList.map Char.toLower = kind.toList.map Char.toLower := by
  unfold capitalized
  cases kind.toList with
  | nil => rfl
  | cons first rest =>
    rw [String.toList_ofList, List.map_cons, List.map_cons, Char.toLower_toUpper_eq_toLower]

/-- What follows the first letter is left as it is where a kind is capitalised. -/
theorem tail_capitalized (kind : String) :
    (capitalized kind).toList.tail = kind.toList.tail := by
  unfold capitalized
  cases kind.toList with
  | nil => rfl
  | cons first rest => rw [String.toList_ofList, List.tail_cons, List.tail_cons]

/-- **A kind of a rule with a later letter in another case is of no rule.** -/
theorem ofKind?_eq_none_of_tail_ne {kind kind' : String} {r : Rule} (h : ofKind? kind = some r)
    (hfold : kind'.toList.map Char.toLower = kind.toList.map Char.toLower)
    (htail : kind'.toList.tail ≠ kind.toList.tail) : ofKind? kind' = none := by
  rw [Option.eq_none_iff_forall_ne_some]
  intro s hs
  -- the other rule has the same letters, so it is the same rule, and the case is that of its name
  have hr := capitalized_of_ofKind? h
  have hs := capitalized_of_ofKind? hs
  have hfolded : s.foldedName = r.foldedName := by
    rw [foldedName, foldedName, ← hs, ← hr, map_toLower_capitalized, map_toLower_capitalized, hfold]
  have hname : capitalized kind' = capitalized kind := by
    rw [hs, hr, foldedName_injective hfolded]
  exact htail (by rw [← tail_capitalized, hname, tail_capitalized])

end Rule

/-! ## Lists that match -/

section Lists

variable {α β : Type} {R : α → β → Prop}

/-- Elements that match stand in the same position. -/
theorem forall₂_mem_zip {as : List α} {bs : List β} (h : List.Forall₂ R as bs) :
    List.Forall₂ (fun a b => R a b ∧ (a, b) ∈ as.zip bs) as bs := by
  induction h with
  | nil => exact .nil
  | cons hab _ ih =>
    refine .cons ⟨hab, List.mem_cons_self⟩ (ih.imp fun a b h => ⟨h.1, List.mem_cons_of_mem _ h.2⟩)

/-- **A search finds elements that match**, if it cannot tell elements that match apart. -/
theorem rel_find? {as : List α} {bs : List β} {p : α → Bool} {q : β → Bool}
    (h : List.Forall₂ R as bs) (hpq : ∀ a b, R a b → q b = p a) :
    Option.Rel R (as.find? p) (bs.find? q) := by
  induction h with
  | nil => exact .none
  | @cons a b as bs hab _ ih =>
    cases hp : p a with
    | true =>
      rw [List.find?_cons_of_pos hp, List.find?_cons_of_pos ((hpq a b hab).trans hp)]
      exact .some hab
    | false =>
      rw [List.find?_cons_of_neg (by simp [hp]), List.find?_cons_of_neg (by simp [hpq a b hab, hp])]
      exact ih

theorem rel_head? {as : List α} {bs : List β} (h : List.Forall₂ R as bs) :
    Option.Rel R as.head? bs.head? := by
  cases h with
  | nil => exact .none
  | cons hab _ => exact .some hab

/-- What elements that match are mapped to alike. -/
theorem map_eq_of_forall₂ {γ : Type} {as : List α} {bs : List β} {f : α → γ} {g : β → γ}
    (h : List.Forall₂ (fun a b => g b = f a) as bs) : bs.map g = as.map f := by
  induction h with
  | nil => rfl
  | cons hab _ ih => rw [List.map_cons, List.map_cons, hab, ih]

end Lists

/-! ## Respellings -/

/-- **Whether a kind is a kind in its own or in another spelling**: it may have its
first letter in the other case if it names a rule. -/
def isKindRespelling (kind kind' : String) : Bool :=
  kind' == kind || ((Rule.ofKind? kind).isSome && kind' == recased kind)

namespace ParseTree

mutual

/-- **Whether a tree is a respelling of a tree**: some kinds that name rules have
their first letter in the other case, and all else is the same. -/
def isRespelling : ParseTree → ParseTree → Bool
  | ⟨kind, text, children⟩, ⟨kind', text', children'⟩ =>
    isKindRespelling kind kind' && text' == text && areRespellings children children'

/-- Whether these trees are respellings of these trees, one by one. -/
def areRespellings : List ParseTree → List ParseTree → Bool
  | [], [] => true
  | tree :: trees, tree' :: trees' => tree.isRespelling tree' && areRespellings trees trees'
  | _, _ => false

end

/-- **The nodes at one and the same place** in two trees. -/
inductive SamePlace : ParseTree → ParseTree → ParseTree → ParseTree → Prop where
  /-- The roots are. -/
  | root (t t' : ParseTree) : SamePlace t t' t t'
  /-- So are nodes at the same place under children in the same position. -/
  | inside {t t' child child' n n' : ParseTree} :
    (child, child') ∈ t.children.zip t'.children → SamePlace child child' n n' →
      SamePlace t t' n n'

theorem areRespellings_iff (trees trees' : List ParseTree) :
    areRespellings trees trees' = true
      ↔ List.Forall₂ (fun t t' => t.isRespelling t' = true) trees trees' := by
  induction trees generalizing trees' with
  | nil => cases trees' <;> simp [areRespellings]
  | cons t ts ih => cases trees' <;> simp [areRespellings, ih]

variable {t t' : ParseTree}

theorem isRespelling_iff (t t' : ParseTree) :
    t.isRespelling t' = true ↔ isKindRespelling t.kind t'.kind = true ∧ t'.text = t.text
      ∧ List.Forall₂ (fun t t' => t.isRespelling t' = true) t.children t'.children := by
  obtain ⟨kind, text, children⟩ := t
  obtain ⟨kind', text', children'⟩ := t'
  rw [isRespelling, Bool.and_eq_true, Bool.and_eq_true, beq_iff_eq, areRespellings_iff, and_assoc]

/-- A respelled node is of the same rule. -/
theorem rule?_of_isRespelling (h : t.isRespelling t' = true) : t'.rule? = t.rule? := by
  have hkind := ((isRespelling_iff t t').mp h).1
  unfold rule?
  simp only [isKindRespelling, Bool.or_eq_true, Bool.and_eq_true, beq_iff_eq] at hkind
  rcases hkind with hkind | ⟨-, hkind⟩
  · rw [hkind]
  · rw [hkind, Rule.ofKind?_recased]

/-- A respelled node is the same terminal, if it is one. -/
theorem kind_beq_of_isRespelling (h : t.isRespelling t' = true) (k : Terminal) :
    (t'.kind == k.kind) = (t.kind == k.kind) := by
  have hrule : Rule.ofKind? t'.kind = Rule.ofKind? t.kind := rule?_of_isRespelling h
  have hkind := ((isRespelling_iff t t').mp h).1
  simp only [isKindRespelling, Bool.or_eq_true, Bool.and_eq_true, beq_iff_eq] at hkind
  rcases hkind with hkind | ⟨hsome, -⟩
  · rw [hkind]
  · -- a node of a rule is no terminal, in either spelling
    have hne {kind : String} (hk : (Rule.ofKind? kind).isSome) : (kind == k.kind) = false := by
      rw [beq_eq_false_iff_ne]
      rintro rfl
      rw [Rule.ofKind?_terminal] at hk
      cases hk
    rw [hne hsome, hne (hrule ▸ hsome)]

/-- Children of respellings match, each with the place where it stands. -/
theorem forall₂_children (h : t.isRespelling t' = true) :
    List.Forall₂ (fun child child' => child.isRespelling child' = true
      ∧ (child, child') ∈ t.children.zip t'.children) t.children t'.children :=
  forall₂_mem_zip ((isRespelling_iff t t').mp h).2.2

/-- **Respelling leaves all tokens as they are.** -/
theorem tokens_of_isRespelling (h : t.isRespelling t' = true) : t'.tokens = t.tokens := by
  induction t using ParseTree.forall_of_children generalizing t' with | step t ih
  refine tokens_congr ((isRespelling_iff t t').mp h).2.1 (map_eq_of_forall₂ ?_)
  refine (forall₂_children h).imp fun child child' ⟨hchild, hmem⟩ => ?_
  rw [← join_tokens, ← join_tokens, ih child (List.of_mem_zip hmem).1 hchild]

theorem sourceText_of_isRespelling (h : t.isRespelling t' = true) :
    t'.sourceText = t.sourceText := by
  rw [← join_tokens, ← join_tokens, tokens_of_isRespelling h]

end ParseTree

/-! ## Readings that are alike -/

/-- The kind of the node that a defect is said of. -/
def Defect.kind : Defect → String
  | notStart kind | misplaced kind | unknownRule kind | missingChild kind _ => kind

/-- **The same defect** of a node of another kind. -/
def Defect.withKind (kind : String) : Defect → Defect
  | notStart _ => notStart kind
  | misplaced _ => misplaced kind
  | unknownRule _ => unknownRule kind
  | missingChild _ child => missingChild kind child

namespace Reading

open ParseTree

variable {α β : Type}

/-- **What two readings come to alike**: the same value, or the same defect of two
nodes at one place, each said with the kind of the node. -/
inductive SameOutcome (Place : ParseTree → ParseTree → Prop) :
    Except Defect α → Except Defect α → Prop where
  /-- The same value. -/
  | value (a : α) : SameOutcome Place (.ok a) (.ok a)
  /-- The same defect. -/
  | defect {n n' : ParseTree} {d : Defect} :
    Place n n' → d.kind = n.kind → SameOutcome Place (.error d) (.error (d.withKind n'.kind))

theorem SameOutcome.mono {Place Place' : ParseTree → ParseTree → Prop}
    {r r' : Except Defect α} (h : SameOutcome Place r r')
    (hplace : ∀ n n', Place n n' → Place' n n') : SameOutcome Place' r r' := by
  cases h with
  | value a => exact .value a
  | defect hn hd => exact .defect (hplace _ _ hn) hd

/-- **Two readings are alike** if they come to the same, up to the kind of a node with
a defect, and log as many events. -/
structure Alike (Place : ParseTree → ParseTree → Prop) (reading reading' : Reading α) : Prop where
  /-- They come to the same. -/
  outcome : SameOutcome Place reading.outcome reading'.outcome
  /-- They log as many events. -/
  length_eq : reading'.run.events.length = reading.run.events.length

variable {Place Place' : ParseTree → ParseTree → Prop}

theorem alike_pure (a : α) : Alike Place (pure a) (pure a) := ⟨.value a, rfl⟩

/-- The same defect is met at one place. -/
theorem alike_throw {n n' : ParseTree} (h : Place n n') (defect : String → Defect)
    (hkind : ∀ kind, (defect kind).kind = kind)
    (hwith : ∀ kind kind', (defect kind).withKind kind' = defect kind') :
    Alike Place (throw (defect n.kind) : Reading α) (throw (defect n'.kind)) := by
  refine ⟨?_, rfl⟩
  rw [← hwith n.kind n'.kind]
  exact .defect h (hkind _)

namespace Alike

variable {reading reading' : Reading α} {f f' : α → Reading β}

/-- Readings are alike at all places where they are at some. -/
theorem mono (h : Alike Place reading reading') (hplace : ∀ n n', Place n n' → Place' n n') :
    Alike Place' reading reading' :=
  ⟨h.outcome.mono hplace, h.length_eq⟩

/-- Readings that are alike may be put one after the other. -/
theorem bind (h : Alike Place reading reading') (hf : ∀ a, Alike Place (f a) (f' a)) :
    Alike Place (reading >>= f) (reading' >>= f') := by
  obtain ⟨houtcome, hlength⟩ := h
  constructor
  · rw [outcome_bind, outcome_bind]
    generalize reading.outcome = r, reading'.outcome = r' at houtcome
    cases houtcome with
    | value a => exact (hf a).outcome
    | defect hn hd => exact .defect hn hd
  · rw [events_bind, events_bind, List.length_append, List.length_append, hlength]
    generalize reading.outcome = r, reading'.outcome = r' at houtcome
    cases houtcome with
    | value a => exact congrArg _ (hf a).length_eq
    | defect hn hd => rfl

theorem map (g : α → β) (h : Alike Place reading reading') :
    Alike Place (g <$> reading) (g <$> reading') := by
  have hb := h.bind (fun a => alike_pure (g a))
  rwa [bind_pure_comp, bind_pure_comp] at hb

/-- Each reading logs an event. -/
theorem log (e e' : Event) (h : Alike Place reading reading') :
    Alike Place ((liftM (Logged.log e) : Reading Unit) >>= fun _ => reading)
      ((liftM (Logged.log e') : Reading Unit) >>= fun _ => reading') :=
  ⟨h.outcome, congrArg (· + 1) h.length_eq⟩

end Alike

/-! ## Respellings are read alike -/

/-- **What the readings of a tree and of a respelling have in common**, whichever of
them the parent asks for. -/
structure ReadAlike (t t' : ParseTree) : Prop where
  /-- The node in a place for statements and expressions. -/
  node : Alike (SamePlace t t') (Reading.node t) (Reading.node t')
  /-- All of its children. -/
  nodes : Alike (SamePlace t t') (Reading.nodes t.children) (Reading.nodes t'.children)
  /-- The node as a declaration. -/
  declaration :
    Alike (SamePlace t t') (declaration t.kind t.children) (declaration t'.kind t'.children)
  /-- The body among its children. -/
  body : Alike (SamePlace t t') (bodyOf t) (bodyOf t')
  /-- The node as a conditional. -/
  conditional : Alike (SamePlace t t') (conditionalOf t) (conditionalOf t')

/-- **Children in the same position**, one a respelling of the other. -/
structure Counterparts (t t' child child' : ParseTree) : Prop where
  /-- They stand in the same position. -/
  mem_zip : (child, child') ∈ t.children.zip t'.children
  /-- One is a respelling of the other. -/
  isRespelling : child.isRespelling child' = true
  /-- They are read alike. -/
  readAlike : ReadAlike child child'

/-- What is alike below children is alike below their parents. -/
theorem Counterparts.alike {t t' child child' : ParseTree} {reading reading' : Reading α}
    (h : Counterparts t t' child child') (ha : Alike (SamePlace child child') reading reading') :
    Alike (SamePlace t t') reading reading' :=
  ha.mono fun _ _ hplace => .inside h.mem_zip hplace

theorem alike_nodes {trees trees' : List ParseTree}
    (h : List.Forall₂ (fun t t' => Alike Place (node t) (node t')) trees trees') :
    Alike Place (nodes trees) (nodes trees') := by
  induction h with
  | nil => exact alike_pure []
  | cons ht _ ih =>
    rw [nodes, nodes]
    refine ht.bind fun first => ?_
    rw [bind_pure_comp, bind_pure_comp]
    exact ih.map (first :: ·)

section Step

-- what is to be shown of a node and its respelling, given their children
variable {t t' : ParseTree}
  (hc : List.Forall₂ (Counterparts t t') t.children t'.children)

include hc

/-- **A look-up of a rule finds counterparts.** -/
theorem rel_findRule (r : Rule) :
    Option.Rel (Counterparts t t') (findRule r t.children) (findRule r t'.children) :=
  rel_find? hc fun _ _ h => by rw [rule?_of_isRespelling h.isRespelling]

/-- A look-up of a terminal finds it in either tree or in neither. -/
theorem alike_terminal (k : Terminal) :
    Alike (SamePlace t t') (terminal t.kind t.children k) (terminal t'.kind t'.children k) := by
  have hrel : Option.Rel (Counterparts t t') (t.children.find? (·.kind == k.kind))
      (t'.children.find? (·.kind == k.kind)) :=
    rel_find? hc fun _ _ h => kind_beq_of_isRespelling h.isRespelling k
  unfold terminal
  generalize t.children.find? (·.kind == k.kind) = found,
    t'.children.find? (·.kind == k.kind) = found' at hrel
  cases hrel with
  | none => exact alike_throw (.root t t') (.missingChild · (.terminal k)) (fun _ => rfl) fun _ _ => rfl
  | some h =>
    simp only [sourceText_of_isRespelling h.isRespelling]
    exact alike_pure _

omit hc in
/-- A child that is needed is read alike, or is missing in either tree. -/
theorem alike_required {needed : NeededChild} {found found' : Option ParseTree}
    {read : ParseTree → Reading α} (hrel : Option.Rel (Counterparts t t') found found')
    (hread : ∀ child child', ReadAlike child child' →
      Alike (SamePlace child child') (read child) (read child')) :
    Alike (SamePlace t t') (required t.kind needed (found.map read))
      (required t'.kind needed (found'.map read)) := by
  cases hrel with
  | none => exact alike_throw (.root t t') (.missingChild · needed) (fun _ => rfl) fun _ _ => rfl
  | some h => exact h.alike (hread _ _ h.readAlike)

theorem alike_child (r : Rule) :
    Alike (SamePlace t t') (required t.kind (.rule r) (nodesOf r t.children))
      (required t'.kind (.rule r) (nodesOf r t'.children)) := by
  rw [nodesOf_eq_map_findRule, nodesOf_eq_map_findRule]
  exact alike_required (rel_findRule hc r) fun _ _ h => h.nodes

theorem alike_first :
    Alike (SamePlace t t') (required t.kind .any (firstNode t.children))
      (required t'.kind .any (firstNode t'.children)) := by
  rw [firstNode_eq_map_head?, firstNode_eq_map_head?]
  exact alike_required (rel_head? hc) fun _ _ h => h.node

theorem alike_each : Alike (SamePlace t t') (nodes t.children) (nodes t'.children) :=
  alike_nodes (hc.imp fun _ _ h => h.alike h.readAlike.node)

theorem alike_declaration :
    Alike (SamePlace t t') (declaration t.kind t.children) (declaration t'.kind t'.children) :=
  (alike_terminal hc .type).bind fun ty => (alike_terminal hc .varName).bind fun name =>
    alike_pure (Declaration.mk ty name)

theorem alike_target :
    Alike (SamePlace t t') (assignTarget t.kind t.children) (assignTarget t'.kind t'.children) := by
  have hd := rel_findRule hc .declaration
  cases hf : findRule .declaration t.children with
  | none =>
    rw [hf] at hd
    generalize hf' : findRule .declaration t'.children = d' at hd
    cases hd with
    | none =>
      rw [assignTarget_of_none _ hf, assignTarget_of_none _ hf']
      exact (alike_terminal hc .varName).map AssignTarget.name
  | some d =>
    rw [hf] at hd
    generalize hf' : findRule .declaration t'.children = d' at hd
    cases hd with
    | some h =>
      rw [assignTarget_of_some _ hf, assignTarget_of_some _ hf']
      exact (h.alike h.readAlike.declaration).map AssignTarget.declaration

theorem alike_body : Alike (SamePlace t t') (bodyOf t) (bodyOf t') := by
  have hs := rel_findRule hc .statement
  have hb := rel_findRule hc .codeBlock
  unfold bodyOf
  rw [statementOf_eq_map_findRule, nodesOf_eq_map_findRule, statementOf_eq_map_findRule,
    nodesOf_eq_map_findRule]
  generalize findRule .statement t.children = s, findRule .statement t'.children = s' at hs
  generalize findRule .codeBlock t.children = b, findRule .codeBlock t'.children = b' at hb
  cases hs with
  | some h => exact (h.alike h.readAlike.node).map Body.single
  | none =>
    cases hb with
    | some h => exact (h.alike h.readAlike.nodes).map Body.block
    | none => exact alike_pure Body.absent

/-- The choice at a conditional is the same in either spelling, and logged in either. -/
theorem alike_continuation :
    Alike (SamePlace t t') (continuation t.kind (elifOf t.children) (elseOf t.children))
      (continuation t'.kind (elifOf t'.children) (elseOf t'.children)) := by
  have hi := rel_findRule hc .conditionalElif
  have he := rel_findRule hc .conditionalElse
  rw [elifOf_eq_map_findRule, elseOf_eq_map_findRule, elifOf_eq_map_findRule,
    elseOf_eq_map_findRule]
  generalize findRule .conditionalElif t.children = i, findRule .conditionalElif t'.children = i'
    at hi
  generalize findRule .conditionalElse t.children = e, findRule .conditionalElse t'.children = e'
    at he
  cases he with
  | some h =>
    have hfinal := (h.alike h.readAlike.body).map Continuation.otherwise
    cases hi with
    | some _ => exact hfinal.log _ _
    | none => exact hfinal
  | none =>
    cases hi with
    | some h => exact (h.alike h.readAlike.conditional).map Conditional.toContinuation
    | none => exact alike_pure Continuation.done

theorem alike_conditional : Alike (SamePlace t t') (conditionalOf t) (conditionalOf t') := by
  rw [conditionalOf, conditionalOf, conditional_eq_bind, conditional_eq_bind]
  exact (alike_continuation hc).bind fun next => (alike_child hc .expression).bind fun condition =>
    (alike_body hc).bind fun body => alike_pure (Conditional.mk condition body next)

/-- **A node of a rule is read alike.** -/
theorem alike_node_of_rule {r : Rule} (hr : t.rule? = some r) (hr' : t'.rule? = some r)
    (htokens : t'.tokens = t.tokens) : Alike (SamePlace t t') (node t) (node t') := by
  have heach := alike_each hc
  have hfirst := alike_first hc
  have hterminal := alike_terminal hc
  have hchild := alike_child hc
  have hdeclaration := alike_declaration hc
  have htarget := alike_target hc
  have hbody := alike_body hc
  have hconditional := alike_conditional hc
  have hmisplaced : Alike (SamePlace t t') (throw (.misplaced t.kind) : Reading Node)
      (throw (.misplaced t'.kind)) :=
    alike_throw (.root t t') .misplaced (fun _ => rfl) fun _ _ => rfl
  generalize SamePlace t t' = Place at *
  obtain ⟨kind, text, children⟩ := t
  obtain ⟨kind', text', children'⟩ := t'
  have hk : Rule.ofKind? kind = some r := hr
  have hk' : Rule.ofKind? kind' = some r := hr'
  unfold node
  rw [hk, hk']
  -- the binds of a reading come in the order of the uses of its rule
  cases r with
  | start | conditionalElif | conditionalElse | args | argsCall => exact hmisplaced
  | statements | controlConstructs | codeBlock | expression => exact heach.map _
  | statement | controlConstruct | cycle => exact hfirst.map _
  | declaration => exact hdeclaration.map Node.declaration
  | operator | primaryLiteral =>
    rw [htokens]
    exact alike_pure _
  | returnExpr => exact (hchild .expression).map _
  | assignment =>
    exact htarget.bind fun target => (hterminal .assignmentOperator).bind fun op =>
      (hchild .expression).bind fun value => alike_pure (Node.assignment target op value)
  | conditional => exact hconditional.map Conditional.toNode
  | whileCycle =>
    exact (hchild .expression).bind fun condition => hbody.bind fun body =>
      alike_pure (Node.whileLoop condition body)
  | method =>
    exact (hterminal .type).bind fun returnType => (hterminal .varName).bind fun name =>
      (hchild .args).bind fun args => (hchild .codeBlock).bind fun block =>
        alike_pure (Node.method returnType name args block)
  | funcCall =>
    exact (hterminal .varName).bind fun name => (hchild .argsCall).bind fun args =>
      alike_pure (Node.call name args)

end Step

/-- A node of no rule without children is its text. -/
theorem node_of_leaf {kind : String} (h : Rule.ofKind? kind = none) (text : Option String) :
    node ⟨kind, text, []⟩ = pure (.token (text.getD "")) := by
  unfold node
  rw [h]

/-- A node of no rule with children is a defect. -/
theorem node_of_unknownRule {kind : String} (h : Rule.ofKind? kind = none) (text : Option String)
    (child : ParseTree) (children : List ParseTree) :
    node ⟨kind, text, child :: children⟩ = throw (.unknownRule kind) := by
  unfold node
  rw [h]

theorem alike_node {t t' : ParseTree} (h : t.isRespelling t' = true)
    (hc : List.Forall₂ (Counterparts t t') t.children t'.children) :
    Alike (SamePlace t t') (node t) (node t') := by
  have hrule := rule?_of_isRespelling h
  cases hr : t.rule? with
  | some r => exact alike_node_of_rule hc hr (hrule.trans hr) (tokens_of_isRespelling h)
  | none =>
    have hr' := hrule.trans hr
    have htext := ((isRespelling_iff t t').mp h).2.1
    have hunknown : Alike (SamePlace t t') (throw (.unknownRule t.kind) : Reading Node)
        (throw (.unknownRule t'.kind)) :=
      alike_throw (.root t t') .unknownRule (fun _ => rfl) fun _ _ => rfl
    generalize SamePlace t t' = Place at hunknown ⊢
    obtain ⟨kind, text, children⟩ := t
    obtain ⟨kind', text', children'⟩ := t'
    obtain rfl : text' = text := htext
    cases hc with
    | nil =>
      rw [node_of_leaf hr, node_of_leaf hr']
      exact alike_pure _
    | cons _ _ =>
      rw [node_of_unknownRule hr, node_of_unknownRule hr']
      exact hunknown

/-- **A tree and a respelling of it are read alike.** -/
theorem readAlike (t t' : ParseTree) (h : t.isRespelling t' = true) : ReadAlike t t' := by
  induction t using ParseTree.forall_of_children generalizing t' with | step t ih
  have hc : List.Forall₂ (Counterparts t t') t.children t'.children :=
    (forall₂_children h).imp fun child child' ⟨hchild, hmem⟩ =>
      ⟨hmem, hchild, ih child (List.of_mem_zip hmem).1 child' hchild⟩
  exact
    { node := alike_node h hc
      nodes := alike_each hc
      declaration := alike_declaration hc
      body := alike_body hc
      conditional := alike_conditional hc }

theorem alike_ofParseTree {t t' : ParseTree} (h : t.isRespelling t' = true) :
    Alike (SamePlace t t') (Program.ofParseTree t) (Program.ofParseTree t') := by
  unfold Program.ofParseTree
  rw [rule?_of_isRespelling h]
  split
  · exact (readAlike t t' h).nodes.map Program.mk
  · exact alike_throw (.root t t') .notStart (fun _ => rfl) fun _ _ => rfl

end Reading

/-- **Rule names match with either case on the first letter, uniformly.** A tree and a
respelling of it stand for the same program, read with as many events, or they have
the same defect, said in either of the node at one and the same place, with the kind
that this node has there. Another change of case does not go unnoticed: a name of a rule
with a later letter in the other case is of no rule, so that a leaf of this kind is a
token, and a node of it that has children is a defect. -/
theorem ofParseTree_respelling :
    (∀ t t' : ParseTree, t.isRespelling t' = true →
      (∃ p, (Program.ofParseTree t).outcome = .ok p ∧ (Program.ofParseTree t').outcome = .ok p
        ∧ (Program.ofParseTree t').run.events.length = (Program.ofParseTree t).run.events.length)
      ∨ ∃ n n' d, ParseTree.SamePlace t t' n n' ∧ (Program.ofParseTree t).outcome = .error d
        ∧ d.kind = n.kind ∧ (Program.ofParseTree t').outcome = .error (d.withKind n'.kind))
    ∧ ∀ (kind kind' : String) (r : Rule), Rule.ofKind? kind = some r →
      kind'.toList.map Char.toLower = kind.toList.map Char.toLower →
      kind'.toList.tail ≠ kind.toList.tail →
        Rule.ofKind? kind' = none ∧ ∀ text : Option String,
          Reading.node ⟨kind', text, []⟩ = pure (.token (text.getD ""))
          ∧ ∀ child children,
            Reading.node ⟨kind', text, child :: children⟩ = throw (.unknownRule kind') := by
  constructor
  · intro t t' h
    obtain ⟨houtcome, hlength⟩ := Reading.alike_ofParseTree h
    generalize (Program.ofParseTree t).outcome = r, (Program.ofParseTree t').outcome = r'
      at houtcome
    cases houtcome with
    | value p => exact .inl ⟨p, rfl, rfl, hlength⟩
    | @defect n n' d hplace hkind => exact .inr ⟨n, n', d, hplace, rfl, hkind, rfl⟩
  · intro kind kind' r h hfold htail
    have hnone := Rule.ofKind?_eq_none_of_tail_ne h hfold htail
    exact ⟨hnone, fun text => ⟨Reading.node_of_leaf hnone text, Reading.node_of_unknownRule hnone text⟩⟩

/-- A program with a choice to make, its kinds spelled one way. -/
def choiceTree (conditional expression otherwise : String) : ParseTree :=
  .rule "start" [.rule conditional
    [.rule expression [.leaf "ID" "a"], .rule "conditionalElif" [], .rule otherwise []]]

/-- A declaration without a type under a statement. -/
def untypedTree (statement declaration : String) : ParseTree :=
  .rule "start" [.rule statement [.rule declaration [.leaf "VAR_NAME" "x"]]]

/-- Either spelling of the choice is the same program, and either spelling of the
declaration has the same defect. A capital too many makes another kind of it. -/
theorem choiceTree_ofParseTree_respelling :
    (choiceTree "conditional" "expression" "ConditionalElse").isRespelling
        (choiceTree "Conditional" "Expression" "conditionalElse") = true
      ∧ (Program.ofParseTree (choiceTree "Conditional" "Expression" "conditionalElse")).outcome
        = .ok ⟨[.conditional [.token "a"] .absent (.otherwise .absent)]⟩
      ∧ (untypedTree "Statement" "declaration").isRespelling
        (untypedTree "statement" "Declaration") = true
      ∧ (∃ n n', ParseTree.SamePlace (untypedTree "Statement" "declaration")
          (untypedTree "statement" "Declaration") n n' ∧ "declaration" = n.kind
        ∧ (Program.ofParseTree (untypedTree "statement" "Declaration")).outcome
          = .error (.missingChild n'.kind (.terminal .type)))
      ∧ Rule.ofKind? "CodeBLock" = none := by
  have hchoice : (choiceTree "conditional" "expression" "ConditionalElse").isRespelling
      (choiceTree "Conditional" "Expression" "conditionalElse") = true := by decide +kernel
  have huntyped : (untypedTree "Statement" "declaration").isRespelling
      (untypedTree "statement" "Declaration") = true := by decide +kernel
  have hok : (Program.ofParseTree (choiceTree "conditional" "expression" "ConditionalElse")).outcome
      = .ok ⟨[.conditional [.token "a"] .absent (.otherwise .absent)]⟩ := by rfl
  have herror : (Program.ofParseTree (untypedTree "Statement" "declaration")).outcome
      = .error (.missingChild "declaration" (.terminal .type)) := by rfl
  obtain ⟨hspell, hcase⟩ := ofParseTree_respelling
  refine ⟨hchoice, ?_, huntyped, ?_,
    (hcase "codeBlock" "CodeBLock" .codeBlock (by decide +kernel) (by decide) (by decide)).1⟩
  · rcases hspell _ _ hchoice with ⟨p, hp, hp', -⟩ | ⟨_, _, d, -, hd, -⟩
    · rw [hp', ← hp, hok]
    · cases hok.symm.trans hd
  · rcases hspell _ _ huntyped with ⟨p, hp, -⟩ | ⟨n, n', d, hplace, hd, hkind, hd'⟩
    · cases herror.symm.trans hp
    · obtain rfl := Except.error.inj (herror.symm.trans hd)
      exact ⟨n, n', hplace, hkind, hd'⟩

end Offside
