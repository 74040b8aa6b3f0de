import Offside.Layout.Render
import Offside.Program.Chain
import Offside.Proofs.Text.Join

/-!
# The clauses of a chain of conditions

A chain of conditions is nested where it is kept and flat where it is read: an
`elif` holds the rest of its chain, and the layout puts it beside the `if`. The
list of its **clauses** (`Conditional.clauses`) is the flat view, and this
module says two things of it.

A chain is built by steps, each of which puts something at its end. In terms
of clauses a step drops the `else` at the end, if there is one, and appends:
the clauses of the branch, with an `elif` in place of its `if`, or an `else`.
So after any steps the conditions are those of the start and those of each
step, in order, and none is missing (`withoutElse_clauses_extendAll`).

The layout of a chain is its clauses one below the other, every header at the
depth of the `if` and every body one level further in (`Conditional.render_toNode`).
-/

namespace Offside

/-- **A clause of a chain of conditions**: a header, and a body below it. -/
inductive Clause where
  /-- The `if` at the start of a chain. -/
  | opening (condition : Expression) (body : Body)
  /-- One more condition to try. -/
  | elif (condition : Expression) (body : Body)
  /-- The branch taken when no condition held. -/
  | otherwise (body : Body)

namespace Clause

/-- The body of a clause. -/
def body : Clause → Body
  | opening _ body | elif _ body | otherwise body => body

/-- Whether a clause is an `else`. -/
def isElse : Clause → Bool
  | otherwise _ => true
  | opening _ _ | elif _ _ => false

/-- The clause that an `if` becomes behind another condition. -/
def asElif : Clause → Clause
  | opening condition body => elif condition body
  | clause => clause

end Clause

/-- **The clauses after an `if`**, down the chain. -/
def Continuation.clauses : Continuation → List Clause
  | done => []
  | elif condition body next => .elif condition body :: next.clauses
  | otherwise body => [.otherwise body]

/-- **The clauses of a chain of conditions.** -/
def Conditional.clauses (c : Conditional) : List Clause :=
  .opening c.condition c.body :: c.next.clauses

/-! ## Steps that extend a chain -/

/-- **Clauses without the `else` at their end**, if there is one. -/
def withoutElse : List Clause → List Clause
  | [] => []
  | [last] => if last.isElse then [] else [last]
  | clause :: next :: rest => clause :: withoutElse (next :: rest)

/-- A condition in front stays. -/
theorem withoutElse_cons {clause : Clause} (h : clause.isElse = false) (rest : List Clause) :
    withoutElse (clause :: rest) = clause :: withoutElse rest := by
  cases rest with
  | nil => simp [withoutElse, h]
  | cons next rest => rfl

/-- Only what is at the end goes. -/
theorem withoutElse_append {clauses others : List Clause} (h : others ≠ []) :
    withoutElse (clauses ++ others) = clauses ++ withoutElse others := by
  induction clauses with
  | nil => rfl
  | cons clause clauses ih =>
    obtain ⟨first, rest, hrest⟩ := List.exists_cons_of_ne_nil
      (List.append_ne_nil_of_right_ne_nil clauses h)
    rw [List.cons_append, List.cons_append, ← ih, hrest, withoutElse]

/-- **A chain with another end** has the clauses of the chain, without the
`else`, and those of the end. -/
theorem Continuation.clauses_withTail (next tail : Continuation) :
    (next.withTail tail).clauses = withoutElse next.clauses ++ tail.clauses :=
  match next with
  | done => rfl
  | otherwise _ => rfl
  | elif condition body next => by
    rw [elif_withTail, clauses, clauses, clauses_withTail next tail, withoutElse_cons rfl,
      List.cons_append]

/-- A condition in front of clauses of which only the last can be an `else`. -/
theorem isElse_of_mem_dropLast_cons {clause : Clause} (h : clause.isElse = false)
    {rest : List Clause} (hrest : ∀ clause ∈ rest.dropLast, clause.isElse = false) :
    ∀ other ∈ (clause :: rest).dropLast, other.isElse = false := by
  cases rest with
  | nil => exact List.forall_mem_nil _
  | cons next rest =>
    rw [List.dropLast_cons_cons, List.forall_mem_cons]
    exact ⟨h, hrest⟩

/-- Only the last of the clauses after an `if` can be an `else`. -/
theorem Continuation.isElse_of_mem_dropLast : ∀ next : Continuation,
    ∀ clause ∈ next.clauses.dropLast, clause.isElse = false
  | done => List.forall_mem_nil _
  | otherwise _ => List.forall_mem_nil _
  | elif _ _ next => isElse_of_mem_dropLast_cons rfl next.isElse_of_mem_dropLast

namespace Conditional

/-- The clauses of a conditional whose chain goes on differently. -/
theorem clauses_withTail (c : Conditional) (tail : Continuation) :
    ({ c with next := c.next.withTail tail } : Conditional).clauses
      = withoutElse c.clauses ++ tail.clauses := by
  rw [clauses, clauses, Continuation.clauses_withTail, withoutElse_cons rfl, List.cons_append]

/-- **Only the last clause can be an `else`.** -/
theorem isElse_of_mem_dropLast (c : Conditional) :
    ∀ clause ∈ c.clauses.dropLast, clause.isElse = false :=
  isElse_of_mem_dropLast_cons rfl c.next.isElse_of_mem_dropLast

end Conditional

/-- **A step that extends a chain of conditions.** -/
inductive ChainStep where
  /-- Add a branch, which may be a chain itself. -/
  | elif (branch : Conditional)
  /-- Close the chain with an `else`. -/
  | otherwise (body : Body)

/-- The clauses that a step appends. -/
def ChainStep.clauses : ChainStep → List Clause
  | elif branch => branch.clauses.modifyHead Clause.asElif
  | otherwise body => [.otherwise body]

theorem ChainStep.clauses_ne_nil (step : ChainStep) : step.clauses ≠ [] := by
  cases step <;> exact List.cons_ne_nil _ _

namespace Conditional

/-- **A chain after one more step.** -/
def extend (c : Conditional) : ChainStep → Conditional
  | .elif branch => c.elif branch
  | .otherwise body => c.otherwise body

/-- **A chain after some steps.** -/
def extendAll (c : Conditional) (steps : List ChainStep) : Conditional := steps.foldl extend c

/-- **A step drops the `else` at the end and appends its clauses.** -/
theorem clauses_extend (c : Conditional) (step : ChainStep) :
    (c.extend step).clauses = withoutElse c.clauses ++ step.clauses := by
  cases step with
  | elif branch => exact c.clauses_withTail branch.toContinuation
  | otherwise body => exact c.clauses_withTail (.otherwise body)

/-- **After any steps the conditions are those of the start and of the steps**,
in order. -/
theorem withoutElse_clauses_extendAll (c : Conditional) (steps : List ChainStep) :
    withoutElse (c.extendAll steps).clauses
      = withoutElse c.clauses ++ steps.flatMap fun step => withoutElse step.clauses := by
  induction steps generalizing c with
  | nil => exact (List.append_nil _).symm
  | cons step steps ih =>
    show withoutElse ((c.extend step).extendAll steps).clauses = _
    rw [ih, clauses_extend, withoutElse_append step.clauses_ne_nil, List.flatMap_cons,
      List.append_assoc]

end Conditional

/-! ## The layout of clauses -/

section Render

variable (o : Options)

/-- **The header of a clause** at `depth`. -/
def Clause.header (depth : Nat) : Clause → Logged String
  | opening condition _ => do
    let condition := joinNonEmpty " " (← renderEach o 0 condition)
    return o.line depth ("if " ++ condition ++ ":")
  | elif condition _ => do
    let condition := joinNonEmpty " " (← renderEach o 0 condition)
    return o.line depth ("elif " ++ condition ++ ":")
  | otherwise _ => return o.line depth "else:"

/-- **A clause at `depth`**: its header, and its body one level further in. -/
def Clause.render (depth : Nat) (clause : Clause) : Logged String := do
  let header ← clause.header o depth
  let suite ← clause.body.render o (depth + 1)
  return o.stack (header :: suite)

/-- **The clauses after an `if` are laid out one by one**: their texts join
alike with the lines of the continuation, and the events are the same. -/
theorem Continuation.render_clauses (depth : Nat) : ∀ next : Continuation,
    JoinAlike o.lineEnding.text (next.clauses.mapM (Clause.render o depth)).value
        (next.render o depth).value
      ∧ (next.clauses.mapM (Clause.render o depth)).events = (next.render o depth).events
  | done => ⟨.refl [], rfl⟩
  | otherwise body => by
    rw [clauses, List.mapM_cons, List.mapM_nil, Continuation.render]
    refine ⟨JoinAlike.join (List.cons_ne_nil _ _), ?_⟩
    simp only [Clause.render, Clause.header, Clause.body, Logged.events_bind, Logged.events_pure,
      List.append_nil, List.nil_append]
  | elif condition body next => by
    obtain ⟨htexts, hevents⟩ := render_clauses depth next
    rw [clauses, List.mapM_cons, Continuation.render]
    refine ⟨?_, ?_⟩
    · exact (JoinAlike.join (List.cons_ne_nil _ _)).append htexts
    · simp only [Clause.render, Clause.header, Clause.body, Logged.events_bind, Logged.events_pure,
        hevents, List.append_nil, List.append_assoc]

/-- **A chain of conditions is laid out as its clauses**, one below the other. -/
theorem Conditional.render_toNode (c : Conditional) (depth : Nat) :
    c.toNode.render o depth
      = do return o.stack (← c.clauses.mapM (Clause.render o depth)) := by
  obtain ⟨htexts, hevents⟩ := c.next.render_clauses o depth
  rw [toNode, clauses, List.mapM_cons, Node.render]
  ext1
  · exact ((JoinAlike.join (List.cons_ne_nil _ _)).append htexts).intercalate_eq.symm
  · simp only [Clause.render, Clause.header, Clause.body, Logged.events_bind, Logged.events_pure,
      hevents, List.append_nil, List.append_assoc]

end Render

/-- **The clauses of a chain that is built step by step**, and its layout. An
`elif` takes the place of an `else` at the end and brings all clauses of its
branch, the first of them as an `elif`; an `else` takes the place of an `else`.
After any steps no clause but the last is an `else`, and the conditions are
those of the start and of the steps, each once and in order. The layout of the
chain at any depth is the clauses one below the other. -/
theorem Conditional.clauses_of_steps (c : Conditional) :
    (∀ branch : Conditional, (c.elif branch).clauses
        = withoutElse c.clauses ++ branch.clauses.modifyHead Clause.asElif)
      ∧ (∀ body : Body, (c.otherwise body).clauses = withoutElse c.clauses ++ [.otherwise body])
      ∧ ∀ steps : List ChainStep,
        (∀ clause ∈ (c.extendAll steps).clauses.dropLast, clause.isElse = false)
          ∧ withoutElse (c.extendAll steps).clauses
            = withoutElse c.clauses ++ steps.flatMap (fun step => withoutElse step.clauses)
          ∧ ∀ (o : Options) (depth : Nat), (c.extendAll steps).toNode.render o depth
            = do return o.stack (← (c.extendAll steps).clauses.mapM (Clause.render o depth)) :=
  ⟨fun branch => c.clauses_extend (.elif branch), fun body => c.clauses_extend (.otherwise body),
    fun steps => ⟨(c.extendAll steps).isElse_of_mem_dropLast, c.withoutElse_clauses_extendAll steps,
      (c.extendAll steps).render_toNode⟩⟩

end Offside
