import Offside.Layout.Render

/-!
# What a layout does not look at

A program carries more than its layout shows. Types are kept as words and
never written. Punctuation is kept where the parser found it and leaves no
trace. Of the arguments of a function only the declared names are written, and
an argument that a call drops is missed in the log and nowhere else.

`Node.erase` takes all of that out of a node, as far as it can be taken out
without moving anything else: a type becomes the empty text, punctuation in a
list goes, and an argument that is dropped gives way to one that stands for
all of them, since every dropped argument is an event of its own. Two nodes
that differ in nothing but erased data are two nodes with one and the same
erasure, and `render_eq_of_erase_eq` says that they have the same text and the
same events.

The proof compares a node with its erasure. The lists of texts that go into a
join may have different lengths then, and what is carried through is that they
are alike once their empty texts are left out (`AlikeTexts`).
-/

namespace Offside

variable {mode : CallArguments}

/-! ## Erasing -/

/-- A declaration without its type. -/
def Declaration.erase (d : Declaration) : Declaration := { d with ty := "" }

/-- What an assignment assigns to, without a type. -/
def AssignTarget.erase : AssignTarget → AssignTarget
  | declaration d => declaration d.erase
  | name n => name n

/-- **The arguments of a function without erased data**: the declarations among
them, without their types. -/
def eraseParameters (args : List Node) : List Node :=
  args.filterMap fun
    | .declaration d => some (.declaration d.erase)
    | _ => none

/-- **The argument that stands for all that are dropped.** No choice of
arguments keeps it. -/
def droppedArgument : Node := .returnExpr []

mutual

/-- **A node without erased data.** -/
def Node.erase (mode : CallArguments) : Node → Node
  | .sequence kind nodes => .sequence kind (eraseEach mode nodes)
  | .wrapper kind inner => .wrapper kind (inner.erase mode)
  | .declaration d => .declaration d.erase
  | .assignment target op value => .assignment target.erase op (eraseEach mode value)
  | .expression parts => .expression (eraseEach mode parts)
  | .operator tokens => .operator tokens
  | .literal tokens => .literal tokens
  | .conditional condition body next =>
    .conditional (eraseEach mode condition) (body.erase mode) (next.erase mode)
  | .whileLoop condition body => .whileLoop (eraseEach mode condition) (body.erase mode)
  | .method _ name args body => .method "" name (eraseParameters args) (eraseEach mode body)
  | .returnExpr value => .returnExpr (eraseEach mode value)
  | .call name args => .call name (eraseArguments mode args)
  | .token _ => .token ""

/-- **Nodes without erased data.** Punctuation among them goes. -/
def eraseEach (mode : CallArguments) : List Node → List Node
  | [] => []
  | .token _ :: nodes => eraseEach mode nodes
  | node :: nodes => node.erase mode :: eraseEach mode nodes

/-- **The arguments of a call without erased data.** Those that are dropped are
still counted. -/
def eraseArguments (mode : CallArguments) : List Node → List Node
  | [] => []
  | arg :: args =>
    match mode.fate arg with
    | .kept => arg.erase mode :: eraseArguments mode args
    | .skipped => eraseArguments mode args
    | .dropped => droppedArgument :: eraseArguments mode args

/-- A body without erased data. -/
def Body.erase (mode : CallArguments) : Body → Body
  | .absent => .absent
  | .block nodes => .block (eraseEach mode nodes)
  | .single node => .single (node.erase mode)

/-- The clauses after an `if` without erased data. -/
def Continuation.erase (mode : CallArguments) : Continuation → Continuation
  | .done => .done
  | .elif condition body next =>
    .elif (eraseEach mode condition) (body.erase mode) (next.erase mode)
  | .otherwise body => .otherwise (body.erase mode)

end

/-- A program without erased data. -/
def Program.erase (mode : CallArguments) (p : Program) : Program := ⟨eraseEach mode p.body⟩

/-! ## What erasing keeps -/

@[simp] theorem AssignTarget.boundName_erase (target : AssignTarget) :
    target.erase.boundName = target.boundName := by
  cases target <;> rfl

/-- Erasing decides nothing about an argument. -/
@[simp] theorem CallArguments.fate_erase (arg : Node) :
    mode.fate (arg.erase mode) = mode.fate arg := by
  cases arg <;> rfl

@[simp] theorem CallArguments.fate_droppedArgument : mode.fate droppedArgument = .dropped := rfl

/-- **The parameters of a function are not erased.** -/
@[simp] theorem parameterNames_eraseParameters (args : List Node) :
    parameterNames (eraseParameters args) = parameterNames args := by
  unfold parameterNames eraseParameters
  rw [List.filterMap_filterMap]
  refine congrArg (List.filterMap · args) (funext fun arg => ?_)
  cases arg <;> rfl

/-! ## Texts alike up to empty ones -/

/-- **Two renderings of lists are alike** if they have the same texts, the
empty ones left out, and the same events. -/
structure AlikeTexts (x y : Logged (List String)) : Prop where
  /-- The texts that are not empty. -/
  texts : x.value.filter (· ≠ "") = y.value.filter (· ≠ "")
  /-- The events. -/
  events : x.events = y.events

namespace AlikeTexts

variable {x y x' y' : Logged (List String)}

theorem refl (x : Logged (List String)) : AlikeTexts x x := ⟨rfl, rfl⟩

/-- **A join does not tell them apart.** -/
theorem join_eq (h : AlikeTexts x y) (separator : String) :
    joinNonEmpty separator x.value = joinNonEmpty separator y.value :=
  congrArg separator.intercalate h.texts

/-- What goes on alike from the two goes on alike after them. -/
theorem bind_eq {α : Type} {f : List String → Logged α} (h : AlikeTexts x y)
    (hf : f x.value = f y.value) : x >>= f = y >>= f := by
  ext1
  · rw [Logged.value_bind, Logged.value_bind, hf]
  · rw [Logged.events_bind, Logged.events_bind, hf, h.events]

/-- The same text in front of both. -/
theorem cons (first : Logged String) (h : AlikeTexts x y) :
    AlikeTexts (do return (← first) :: (← x)) (do return (← first) :: (← y)) where
  texts := by
    simp only [Logged.value_bind, Logged.value_pure, List.filter_cons, h.texts]
  events := by
    simp only [Logged.events_bind, Logged.events_pure, h.events]

/-- A text that is empty, and no event, in front of one of them. -/
theorem cons_empty (h : AlikeTexts x y) :
    AlikeTexts x (do return (← (pure "" : Logged String)) :: (← y)) where
  texts := h.texts
  events := by
    simpa using h.events

/-- The same event in front of both. -/
theorem log (e : Event) (h : AlikeTexts x y) :
    AlikeTexts (Logged.log e >>= fun _ => x) (Logged.log e >>= fun _ => y) where
  texts := h.texts
  events := congrArg ([e] ++ ·) h.events

end AlikeTexts

/-! ## Erasing leaves the rendering alone -/

mutual

/-- **A node and its erasure have the same text and the same events.** -/
theorem Node.render_erase (o : Options) : ∀ (node : Node) (depth : Nat),
    (node.erase o.callArguments).render o depth = node.render o depth
  | .sequence _ nodes, depth => by
    have h := alikeTexts_eraseEach o nodes depth
    rw [Node.erase, Node.render, Node.render]
    exact h.bind_eq (congrArg pure (h.join_eq _))
  | .wrapper _ inner, depth => Node.render_erase o inner depth
  | .declaration d, depth => rfl
  | .assignment target op value, depth => by
    have h := alikeTexts_eraseEach o value 0
    rw [Node.erase, Node.render, Node.render, AssignTarget.boundName_erase]
    exact h.bind_eq (by simp only [h.join_eq])
  | .expression parts, depth => by
    have h := alikeTexts_eraseEach o parts 0
    rw [Node.erase, Node.render, Node.render]
    exact h.bind_eq (by simp only [h.join_eq])
  | .operator _, _ => rfl
  | .literal _, _ => rfl
  | .conditional condition body next, depth => by
    have h := alikeTexts_eraseEach o condition 0
    rw [Node.erase, Node.render, Node.render, Body.render_erase o body (depth + 1),
      Continuation.render_erase o next depth]
    exact h.bind_eq (by simp only [h.join_eq])
  | .whileLoop condition body, depth => by
    have h := alikeTexts_eraseEach o condition 0
    rw [Node.erase, Node.render, Node.render, Body.render_erase o body (depth + 1)]
    exact h.bind_eq (by simp only [h.join_eq])
  | .method _ name args body, depth => by
    have h := alikeTexts_eraseEach o body (depth + 1)
    rw [Node.erase, Node.render, Node.render, parameterNames_eraseParameters]
    exact h.bind_eq (by simp only [Options.stackNonEmpty, h.join_eq])
  | .returnExpr value, depth => by
    have h := alikeTexts_eraseEach o value 0
    rw [Node.erase, Node.render, Node.render]
    exact h.bind_eq (by simp only [h.join_eq])
  | .call name args, depth => by
    have h := alikeTexts_eraseArguments o name args
    rw [Node.erase, Node.render, Node.render]
    exact h.bind_eq (by simp only [h.join_eq])
  | .token _, _ => rfl

/-- Nodes and their erasures have the same texts, but for empty ones. -/
theorem alikeTexts_eraseEach (o : Options) : ∀ (nodes : List Node) (depth : Nat),
    AlikeTexts (renderEach o depth (eraseEach o.callArguments nodes)) (renderEach o depth nodes)
  | [], _ => .refl _
  | node :: nodes, depth => by
    have ih := alikeTexts_eraseEach o nodes depth
    have hnode := Node.render_erase o node depth
    cases node with
    | token _ => exact ih.cons_empty
    | _ =>
      rw [eraseEach, renderEach, hnode]
      · exact ih.cons _
      · exact nofun

/-- The arguments a call keeps are not erased, and each one it drops is still
logged. -/
theorem alikeTexts_eraseArguments (o : Options) (callee : String) : ∀ args : List Node,
    AlikeTexts (renderArguments o callee (eraseArguments o.callArguments args))
      (renderArguments o callee args)
  | [] => .refl _
  | arg :: args => by
    have ih := alikeTexts_eraseArguments o callee args
    rw [eraseArguments, renderArguments]
    cases hf : o.callArguments.fate arg with
    | kept =>
      have harg := Node.render_erase o arg 0
      simp only [renderArguments, CallArguments.fate_erase, hf, harg]
      exact ih.cons _
    | skipped => exact ih
    | dropped => exact ih.log _

/-- A body and its erasure have the same lines. -/
theorem Body.render_erase (o : Options) : ∀ (body : Body) (depth : Nat),
    (body.erase o.callArguments).render o depth = body.render o depth
  | .absent, _ => rfl
  | .block nodes, depth => by
    have h := alikeTexts_eraseEach o nodes depth
    rw [Body.erase, Body.render, Body.render]
    exact h.bind_eq (by simp only [Options.stackNonEmpty, h.join_eq])
  | .single node, depth => by
    rw [Body.erase, Body.render, Body.render, Node.render_erase o node depth]

/-- The clauses after an `if` and their erasures have the same lines. -/
theorem Continuation.render_erase (o : Options) : ∀ (next : Continuation) (depth : Nat),
    (next.erase o.callArguments).render o depth = next.render o depth
  | .done, _ => rfl
  | .elif condition body next, depth => by
    have h := alikeTexts_eraseEach o condition 0
    rw [Continuation.erase, Continuation.render, Continuation.render,
      Body.render_erase o body (depth + 1), Continuation.render_erase o next depth]
    exact h.bind_eq (by simp only [h.join_eq])
  | .otherwise body, depth => by
    rw [Continuation.erase, Continuation.render, Continuation.render,
      Body.render_erase o body (depth + 1)]

end

/-- A program and its erasure have the same text and the same events. -/
theorem Program.render_erase (o : Options) (p : Program) :
    (p.erase o.callArguments).render o = p.render o := by
  have h := alikeTexts_eraseEach o p.body 0
  unfold Program.render Program.erase
  exact h.bind_eq (congrArg pure (h.join_eq _))

/-- **Erased data cannot influence the result.** Two nodes that are the same
once erased data is taken out have the same text and the same events at every
depth, and so have two programs. -/
theorem render_eq_of_erase_eq (o : Options) :
    (∀ (node other : Node) (depth : Nat),
        node.erase o.callArguments = other.erase o.callArguments →
          node.render o depth = other.render o depth)
      ∧ ∀ p q : Program, p.erase o.callArguments = q.erase o.callArguments →
          p.render o = q.render o := by
  constructor
  · intro node other depth h
    rw [← Node.render_erase o node depth, h, Node.render_erase o other depth]
  · intro p q h
    rw [← Program.render_erase o p, h, Program.render_erase o q]

/-- A function with types, punctuation and an argument that is dropped. -/
def annotatedMethod : Node :=
  .method "int" "f" [.token "(", .declaration ⟨"int", "a"⟩, .token ",", .operator ["?"]]
    [.declaration ⟨"int", "b"⟩, .token ";",
      .call "g" [.token "(", .literal ["1"], .token ",", .expression [.literal ["a"]]]]

/-- The same function with other types, without its punctuation and with
another argument that is dropped. -/
def plainMethod : Node :=
  .method "void" "f" [.declaration ⟨"char", "a"⟩]
    [.declaration ⟨"long", "b"⟩, .call "g" [.literal ["1"], .call "h" []]]

/-- Two functions that differ in erased data have the same text and the same
events, one level in and as programs. -/
theorem render_annotatedMethod_eq :
    annotatedMethod.erase .literals = plainMethod.erase .literals
      ∧ annotatedMethod.render {} 1 = plainMethod.render {} 1
      ∧ (Program.mk [annotatedMethod]).render {} = (Program.mk [plainMethod]).render {} :=
  ⟨rfl, (render_eq_of_erase_eq {}).1 annotatedMethod plainMethod 1 rfl,
    (render_eq_of_erase_eq {}).2 ⟨[annotatedMethod]⟩ ⟨[plainMethod]⟩ rfl⟩

end Offside
