import Offside.Program.OfParseTree

/-!
# What a reading comes to

A reading logs events on its way, and apart from these it comes to a value or
to a defect: its **outcome**. Outcomes follow the structure of readings
(`Reading.outcome_bind`), and what is shown here about outcomes is all that a
proof about defects and programs needs to know of readings.

The functions that look a child up walk the list of children and read on
below the child they find, so that the reading of a tree is one recursion.
For a proof the two steps are better kept apart, and `eq_map_findRule` says of
all of them that a look-up is a search for a child, followed by a reading of
that child alone.
-/

namespace Offside

/-! ## Induction on parse trees -/

section Induction

variable {motive : ParseTree → Prop}

mutual

/-- **What passes from the children of every node to the node holds of every
tree.** -/
theorem ParseTree.forall_of_children
    (step : ∀ t : ParseTree, (∀ child ∈ t.children, motive child) → motive t) :
    ∀ t : ParseTree, motive t
  | ⟨kind, text, children⟩ =>
    step ⟨kind, text, children⟩ (ParseTree.forall_mem_of_children step children)

/-- What passes from children to nodes holds of all children. -/
theorem ParseTree.forall_mem_of_children
    (step : ∀ t : ParseTree, (∀ child ∈ t.children, motive child) → motive t) :
    ∀ children : List ParseTree, ∀ child ∈ children, motive child
  | [] => List.forall_mem_nil _
  | child :: children =>
    List.forall_mem_cons.mpr ⟨ParseTree.forall_of_children step child,
      ParseTree.forall_mem_of_children step children⟩

end

end Induction

namespace Reading

variable {α β : Type}

/-! ## Outcomes -/

/-- **What a reading comes to**, its events aside. -/
def outcome (reading : Reading α) : Except Defect α := reading.run.value

/-- **The first defect ends a reading.** -/
theorem outcome_bind (reading : Reading α) (f : α → Reading β) :
    outcome (reading >>= f) = reading.outcome >>= fun a => (f a).outcome := by
  show (ExceptT.run (reading >>= f)).value = _
  rw [ExceptT.run_bind, Logged.value_bind]
  unfold outcome
  cases reading.run.value <;> rfl

/-- **What follows a defect logs nothing.** -/
theorem events_bind (reading : Reading α) (f : α → Reading β) :
    (reading >>= f).run.events
      = reading.run.events ++ reading.outcome.toOption.elim [] fun a => (f a).run.events := by
  rw [ExceptT.run_bind, Logged.events_bind]
  unfold outcome
  cases reading.run.value <;> rfl

/-! ## Looking a child up -/

/-- The body that a node has among its children. -/
def bodyOf (t : ParseTree) : Reading Body :=
  body (statementOf t.children) (nodesOf .codeBlock t.children)

/-- A node read as a conditional, whatever its kind. -/
def conditionalOf (t : ParseTree) : Reading Conditional :=
  conditional t.kind (elifOf t.children) (elseOf t.children)
    (nodesOf .expression t.children) (bodyOf t)

/-- **What follows the first clause of a conditional**, from the `elif` and the
`else` that were found. -/
def continuation (kind : String) (elif : Option (Reading Continuation))
    (otherwise : Option (Reading Body)) : Reading Continuation :=
  match elif, otherwise with
  | some _, some final => do
    Logged.log (.keptElse kind)
    .otherwise <$> final
  | none, some final => .otherwise <$> final
  | some branch, none => branch
  | none, none => pure .done

/-- The continuation is read first. -/
theorem conditional_eq_bind (kind : String) (elif : Option (Reading Continuation))
    (otherwise : Option (Reading Body)) (condition : Option (Reading (List Node)))
    (body : Reading Body) :
    conditional kind elif otherwise condition body = (do
      let next ← continuation kind elif otherwise
      let condition ← required kind (.rule .expression) condition
      return ⟨condition, ← body, next⟩) := by
  unfold conditional continuation
  rcases elif with _ | branch <;> rcases otherwise with _ | final
  · exact (pure_bind _ _).symm
  · rfl
  · rfl
  · exact (bind_assoc _ _ _).symm

/-- The first child that is an `r`. -/
def findRule (r : Rule) (children : List ParseTree) : Option ParseTree :=
  children.find? (·.rule? = some r)

theorem findRule_cons (r : Rule) (t : ParseTree) (ts : List ParseTree) :
    findRule r (t :: ts) = if t.rule? = some r then some t else findRule r ts := by
  unfold findRule
  by_cases h : t.rule? = some r
  · rw [List.find?_cons_of_pos (by simpa using h), if_pos h]
  · rw [List.find?_cons_of_neg (by simpa using h), if_neg h]

/-- What is found is an `r` among the children. -/
theorem of_findRule {r : Rule} {children : List ParseTree} {child : ParseTree}
    (h : findRule r children = some child) : child ∈ children ∧ child.rule? = some r := by
  unfold findRule at h
  refine ⟨List.mem_of_find?_eq_some h, ?_⟩
  have hr := List.find?_some h
  exact of_decide_eq_true hr

/-- **A look-up that reads on is a search followed by a reading.** It need only
answer for the first child if that is of the rule, and pass it over if not. -/
theorem eq_map_findRule {f : List ParseTree → Option β} {r : Rule} {g : ParseTree → β}
    (hnil : f [] = none)
    (hcons : ∀ t ts, f (t :: ts) = if t.rule? = some r then some (g t) else f ts)
    (children : List ParseTree) : f children = (findRule r children).map g := by
  induction children with
  | nil => exact hnil
  | cons t ts ih =>
    rw [hcons, findRule_cons, ih]
    by_cases h : t.rule? = some r
    · rw [if_pos h, if_pos h, Option.map_some]
    · rw [if_neg h, if_neg h]

variable (children : List ParseTree)

theorem firstNode_eq_map_head? : firstNode children = children.head?.map node := by
  cases children <;> rfl

theorem nodesOf_eq_map_findRule (r : Rule) :
    nodesOf r children = (findRule r children).map (fun t => nodes t.children) := by
  refine eq_map_findRule rfl (fun t ts => ?_) children
  obtain ⟨kind, text, below⟩ := t
  rw [nodesOf]
  rfl

theorem statementOf_eq_map_findRule :
    statementOf children = (findRule .statement children).map node := by
  refine eq_map_findRule rfl (fun t ts => ?_) children
  rw [statementOf]

theorem elseOf_eq_map_findRule :
    elseOf children = (findRule .conditionalElse children).map bodyOf := by
  refine eq_map_findRule rfl (fun t ts => ?_) children
  obtain ⟨kind, text, below⟩ := t
  rw [elseOf]
  rfl

theorem elifOf_eq_map_findRule :
    elifOf children = (findRule .conditionalElif children).map
      (fun t => Conditional.toContinuation <$> conditionalOf t) := by
  refine eq_map_findRule rfl (fun t ts => ?_) children
  obtain ⟨kind, text, below⟩ := t
  rw [elifOf]
  rfl

/-- A declaration is looked up as every other child is. -/
theorem find?_declaration :
    children.find? (·.rule? == some .declaration) = findRule .declaration children := by
  refine congrArg (List.find? · children) (funext fun child => ?_)
  rw [Bool.eq_iff_iff, beq_iff_eq, decide_eq_true_iff]

theorem assignTarget_of_some {kind : String} {d : ParseTree}
    (h : findRule .declaration children = some d) :
    assignTarget kind children = .declaration <$> declaration d.kind d.children := by
  rw [assignTarget, find?_declaration, h]

theorem assignTarget_of_none {kind : String} (h : findRule .declaration children = none) :
    assignTarget kind children = .name <$> terminal kind children .varName := by
  rw [assignTarget, find?_declaration, h]

end Reading

end Offside
