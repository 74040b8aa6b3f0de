import Offside.Layout.Render

/-!
# What stands within a line

A node in statement position may take many lines; a node in an expression is
meant to take a part of one. Which nodes can is decided by their kind: an
expression, a call, an operator, a literal, a declared name and punctuation
are **inline**, and an expression or a call is inline throughout if its parts
and the arguments that it keeps are. Arguments that are dropped do not count,
so what is inline depends on the arguments that calls keep.

An inline node has a text of its own (`Node.inlineText`), which knows nothing
of depth, of indentation or of how lines end. It is the text that rendering
the node at depth zero gives (`Node.value_render_zero`), which is what an
expression does with its parts.

What a program holds of expressions is found by its **phrases**: its simple
statements and its conditions, one for every line with something in it to
read. A condition counts as the expression it is.
-/

namespace Offside

variable {mode : CallArguments}

/-! ## Inline nodes and their text -/

mutual

/-- **Whether a node is inline**, and everything in it that is rendered. -/
def Node.isInline (mode : CallArguments) : Node → Bool
  | .expression parts => areInline mode parts
  | .operator _ | .literal _ | .declaration _ | .token _ => true
  | .call _ args => keptAreInline mode args
  | _ => false

/-- Whether all of these nodes are inline. -/
def areInline (mode : CallArguments) : List Node → Bool
  | [] => true
  | node :: nodes => node.isInline mode && areInline mode nodes

/-- Whether all of these arguments that are kept are inline. -/
def keptAreInline (mode : CallArguments) : List Node → Bool
  | [] => true
  | arg :: args =>
    (mode.fate arg ≠ .kept || arg.isInline mode) && keptAreInline mode args

end

mutual

/-- **The text of an inline node.** A node that is not inline has none. -/
def Node.inlineText (mode : CallArguments) : Node → String
  | .expression parts => joinNonEmpty " " (inlineTexts mode parts)
  | .operator tokens | .literal tokens => joinNonEmpty " " tokens
  | .declaration d => d.name
  | .call name args => name ++ "(" ++ joinNonEmpty ", " (keptTexts mode args) ++ ")"
  | _ => ""

/-- The texts of inline nodes. -/
def inlineTexts (mode : CallArguments) : List Node → List String
  | [] => []
  | node :: nodes => node.inlineText mode :: inlineTexts mode nodes

/-- The texts of the arguments that are kept. -/
def keptTexts (mode : CallArguments) : List Node → List String
  | [] => []
  | arg :: args =>
    if mode.fate arg = .kept then arg.inlineText mode :: keptTexts mode args
    else keptTexts mode args

end

/-- **The text of an expression**: its parts with spaces between them. -/
def expressionText (mode : CallArguments) (parts : Expression) : String :=
  joinNonEmpty " " (inlineTexts mode parts)

/-! ## Phrases -/

mutual

/-- **The phrases of a node**: the simple statements and the conditions in it,
in source order. Nothing within an expression, and no parameter of a
function, is a phrase. -/
def Node.phrases : Node → List Node
  | .sequence _ nodes => phrasesOf nodes
  | .wrapper _ inner => inner.phrases
  | .conditional condition body next =>
    .expression condition :: (body.phrases ++ next.phrases)
  | .whileLoop condition body => .expression condition :: body.phrases
  | .method _ _ _ body => phrasesOf body
  | simple => [simple]

/-- The phrases of nodes in the same position. -/
def phrasesOf : List Node → List Node
  | [] => []
  | node :: nodes => node.phrases ++ phrasesOf nodes

/-- The phrases of a body. -/
def Body.phrases : Body → List Node
  | .absent => []
  | .block nodes => phrasesOf nodes
  | .single node => node.phrases

/-- The phrases of the clauses after an `if`. -/
def Continuation.phrases : Continuation → List Node
  | .done => []
  | .elif condition body next =>
    .expression condition :: (body.phrases ++ next.phrases)
  | .otherwise body => body.phrases

end

/-- The phrases of a program. -/
def Program.phrases (p : Program) : List Node := phrasesOf p.body

/-- **Whether everything a phrase reads is inline**: the parts of its
expression, or the arguments that its call keeps. -/
def Node.readsInline (mode : CallArguments) : Node → Bool
  | .assignment _ _ value | .returnExpr value | .expression value => areInline mode value
  | .call _ args => keptAreInline mode args
  | _ => true

/-! ## Rendering at depth zero -/

/-- There is no indentation at depth zero. -/
@[simp] theorem Options.line_zero (o : Options) (text : String) : o.line 0 text = text := by
  unfold Options.line Options.indent
  rw [Nat.zero_mul, List.replicate_zero, String.ofList_nil, String.empty_append]

/-- A text at depth zero is placed as it is. -/
@[simp] theorem Options.place_zero (o : Options) (text : String) : o.place 0 text = text := by
  unfold Options.place
  by_cases h : text = ""
  · rw [if_pos h, h]
  · rw [if_neg h]
    exact o.line_zero text

mutual

/-- **An inline node at depth zero has its inline text.** -/
theorem Node.value_render_zero (o : Options) : ∀ node : Node,
    node.isInline o.callArguments = true →
      (node.render o 0).value = node.inlineText o.callArguments
  | .expression parts, h => by
    rw [Node.isInline] at h
    simp only [Node.render, Logged.value_bind, Logged.value_pure, Options.place_zero,
      Node.inlineText, value_renderEach_zero o parts h]
  | .operator tokens, _ => by
    simp only [Node.render, Logged.value_pure, Options.place_zero, Node.inlineText]
  | .literal tokens, _ => by
    simp only [Node.render, Logged.value_pure, Options.place_zero, Node.inlineText]
  | .declaration d, _ => by
    simp only [Node.render, Logged.value_pure, Options.line_zero, Node.inlineText]
  | .token _, _ => by
    simp only [Node.render, Logged.value_pure, Node.inlineText]
  | .call name args, h => by
    rw [Node.isInline] at h
    simp only [Node.render, Logged.value_bind, Logged.value_pure, Options.place_zero,
      Node.inlineText, value_renderArguments o name args h]

/-- The inline texts of nodes rendered at depth zero. -/
theorem value_renderEach_zero (o : Options) : ∀ nodes : List Node,
    areInline o.callArguments nodes = true →
      (renderEach o 0 nodes).value = inlineTexts o.callArguments nodes
  | [], _ => rfl
  | node :: nodes, h => by
    rw [areInline, Bool.and_eq_true] at h
    simp only [renderEach, Logged.value_bind, Logged.value_pure, inlineTexts,
      Node.value_render_zero o node h.1, value_renderEach_zero o nodes h.2]

/-- **The arguments a call renders** are those that it keeps. -/
theorem value_renderArguments (o : Options) (callee : String) : ∀ args : List Node,
    keptAreInline o.callArguments args = true →
      (renderArguments o callee args).value = keptTexts o.callArguments args
  | [], _ => rfl
  | arg :: args, h => by
    rw [keptAreInline, Bool.and_eq_true] at h
    have ih := value_renderArguments o callee args h.2
    rw [renderArguments, keptTexts]
    cases hf : o.callArguments.fate arg with
    | kept =>
      have harg : arg.isInline o.callArguments = true := by
        simpa [hf] using h.1
      simp only [Logged.value_bind, Logged.value_pure, if_true,
        Node.value_render_zero o arg harg, ih]
    | skipped => simpa using ih
    | dropped => simpa using ih

end

end Offside
