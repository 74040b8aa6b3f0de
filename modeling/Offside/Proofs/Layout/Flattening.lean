import Offside.Layout.Render
import Offside.Proofs.Text.Join

/-!
# Sequences and wrappers are transparent

A parser hands over the same statements in many forms: sequences within
sequences, statements that wrap a construct that wraps a loop, a body that is
one statement or a block of one. A layout shows none of this. What it shows of
nodes in statement position is what it shows of the **flat** list that is left
when sequences are spliced into their surroundings, wrappers are opened,
punctuation is dropped and every body is made a flat block (`flatOf`). Nothing
changes in expressions and in arguments, where a sequence does not stand in
statement position.

To splice a sequence is to replace some nodes of a list by others, and so the
notion that is carried through is a replacement in every list around
(`Interchangeable`): the text of the whole list stays the same, and so do its
events. A sequence of nodes without text is the case to look at. It is one
empty text where there are no texts at all after splicing, and the two agree
only because empty texts are left out of a block.
-/

namespace Offside

/-! ## Flat lists of nodes -/

mutual

/-- **A node in statement position as a flat list.** -/
def Node.flat : Node → List Node
  | .sequence _ nodes => flatOf nodes
  | .wrapper _ inner => inner.flat
  | .token _ => []
  | .conditional condition body next => [.conditional condition body.flat next.flat]
  | .whileLoop condition body => [.whileLoop condition body.flat]
  | .method returnType name args body => [.method returnType name args (flatOf body)]
  | simple => [simple]

/-- **Nodes in statement position as a flat list.** -/
def flatOf : List Node → List Node
  | [] => []
  | node :: nodes => node.flat ++ flatOf nodes

/-- A body as a flat block, if there is one. -/
def Body.flat : Body → Body
  | .absent => .absent
  | .block nodes => .block (flatOf nodes)
  | .single node => .block node.flat

/-- The clauses after an `if`, each with a flat body. -/
def Continuation.flat : Continuation → Continuation
  | .done => .done
  | .elif condition body next => .elif condition body.flat next.flat
  | .otherwise body => .otherwise body.flat

end

/-- A program as a flat list of nodes. -/
def Program.flat (p : Program) : Program := ⟨flatOf p.body⟩

mutual

/-- **Whether a node may stand in a flat list**: it is no sequence, no wrapper
and no punctuation, and its bodies are flat. -/
def Node.isFlat : Node → Bool
  | .sequence _ _ | .wrapper _ _ | .token _ => false
  | .conditional _ body next => body.isFlat && next.isFlat
  | .whileLoop _ body => body.isFlat
  | .method _ _ _ body => areFlat body
  | _ => true

/-- Whether a list of nodes is flat. -/
def areFlat : List Node → Bool
  | [] => true
  | node :: nodes => node.isFlat && areFlat nodes

/-- Whether a body is flat. -/
def Body.isFlat : Body → Bool
  | .absent => true
  | .block nodes => areFlat nodes
  | .single _ => false

/-- Whether all clauses after an `if` have flat bodies. -/
def Continuation.isFlat : Continuation → Bool
  | .done => true
  | .elif _ body next => body.isFlat && next.isFlat
  | .otherwise body => body.isFlat

end

theorem areFlat_append (nodes others : List Node) :
    areFlat (nodes ++ others) = (areFlat nodes && areFlat others) := by
  induction nodes with
  | nil => rfl
  | cons node nodes ih => rw [List.cons_append, areFlat, areFlat, ih, Bool.and_assoc]

mutual

/-- **Flattening leaves nothing to flatten.** -/
theorem Node.areFlat_flat : ∀ node : Node, areFlat node.flat = true
  | .sequence _ nodes => areFlat_flatOf nodes
  | .wrapper _ inner => inner.areFlat_flat
  | .token _ => rfl
  | .conditional _ body next => by
    simp only [Node.flat, areFlat, Node.isFlat, body.isFlat_flat, next.isFlat_flat, Bool.and_true]
  | .whileLoop _ body => by
    simp only [Node.flat, areFlat, Node.isFlat, body.isFlat_flat, Bool.and_true]
  | .method _ _ _ body => by
    simp only [Node.flat, areFlat, Node.isFlat, areFlat_flatOf body, Bool.and_true]
  | .declaration _ | .assignment _ _ _ | .expression _ | .operator _ | .literal _
  | .returnExpr _ | .call _ _ => rfl

/-- Flattening nodes leaves nothing to flatten. -/
theorem areFlat_flatOf : ∀ nodes : List Node, areFlat (flatOf nodes) = true
  | [] => rfl
  | node :: nodes => by
    rw [flatOf, areFlat_append, node.areFlat_flat, areFlat_flatOf nodes, Bool.and_true]

/-- Flattening a body leaves nothing to flatten. -/
theorem Body.isFlat_flat : ∀ body : Body, body.flat.isFlat = true
  | .absent => rfl
  | .block nodes => areFlat_flatOf nodes
  | .single node => node.areFlat_flat

/-- Flattening clauses leaves nothing to flatten. -/
theorem Continuation.isFlat_flat : ∀ next : Continuation, next.flat.isFlat = true
  | .done => rfl
  | .elif _ body next => by
    rw [Continuation.flat, Continuation.isFlat, body.isFlat_flat, next.isFlat_flat, Bool.and_true]
  | .otherwise body => body.isFlat_flat

end

/-- A loop within a wrapper, with a body that is a sequence. -/
example (condition : Expression) :
    flatOf [.sequence .statements [.token ";", .wrapper .cycle (.whileLoop condition
      (.single (.sequence .codeBlock [.token ";", .returnExpr []])))]]
      = [.whileLoop condition (.block [.returnExpr []])] := rfl

/-! ## Nodes that can take each other's place -/

section Render

variable (o : Options)

/-- Nodes rendered one list after the other. -/
theorem renderEach_append (depth : Nat) (nodes others : List Node) :
    renderEach o depth (nodes ++ others)
      = do return (← renderEach o depth nodes) ++ (← renderEach o depth others) := by
  induction nodes with
  | nil => ext1 <;> simp [renderEach]
  | cons node nodes ih => ext1 <;> simp [renderEach, ih]

/-- **Two lists of nodes are interchangeable** if one can take the place of the
other in every sequence: the sequence has the same text, and the same events. -/
def Interchangeable (nodes others : List Node) : Prop :=
  ∀ (kind : SequenceKind) (before after : List Node) (depth : Nat),
    (Node.sequence kind (before ++ nodes ++ after)).render o depth
      = (Node.sequence kind (before ++ others ++ after)).render o depth

namespace Interchangeable

variable {o} {nodes others nodes' others' : List Node}

theorem refl (nodes : List Node) : Interchangeable o nodes nodes := fun _ _ _ _ => rfl

theorem symm (h : Interchangeable o nodes others) : Interchangeable o others nodes :=
  fun kind before after depth => (h kind before after depth).symm

theorem trans {more : List Node} (h : Interchangeable o nodes others)
    (h' : Interchangeable o others more) : Interchangeable o nodes more :=
  fun kind before after depth => (h kind before after depth).trans (h' kind before after depth)

/-- Interchangeable lists beside interchangeable lists. -/
theorem append (h : Interchangeable o nodes others) (h' : Interchangeable o nodes' others') :
    Interchangeable o (nodes ++ nodes') (others ++ others') := by
  intro kind before after depth
  have hl := h kind before (nodes' ++ after) depth
  have hr := h' kind (before ++ others) after depth
  simp only [List.append_assoc] at hl hr ⊢
  rw [hl, hr]

/-- Nothing stands around the nodes. -/
theorem render_eq (h : Interchangeable o nodes others) (kind : SequenceKind) (depth : Nat) :
    (Node.sequence kind nodes).render o depth = (Node.sequence kind others).render o depth := by
  have h' := h kind [] [] depth
  rwa [List.nil_append, List.append_nil, List.nil_append, List.append_nil] at h'

/-- **Nodes can be exchanged if their texts join alike**, the empty ones left
out, and their events are the same. -/
theorem of_joinAlike
    (htexts : ∀ depth, JoinAlike o.lineEnding.text
      ((renderEach o depth nodes).value.filter (· ≠ ""))
      ((renderEach o depth others).value.filter (· ≠ "")))
    (hevents : ∀ depth, (renderEach o depth nodes).events = (renderEach o depth others).events) :
    Interchangeable o nodes others := by
  intro kind before after depth
  simp only [Node.render, renderEach_append]
  ext1
  · simp only [Logged.value_bind, Logged.value_pure, Options.stackNonEmpty, joinNonEmpty,
      List.filter_append]
    exact htexts depth _ _
  · simp only [Logged.events_bind, Logged.events_pure, hevents depth]

/-- Nodes that are rendered alike at every depth. -/
theorem of_render_eq {node other : Node} (h : ∀ depth, node.render o depth = other.render o depth) :
    Interchangeable o [node] [other] := by
  have heach : ∀ depth, renderEach o depth [node] = renderEach o depth [other] := fun depth => by
    simp only [renderEach, h depth]
  exact of_joinAlike (fun depth => by rw [heach depth]; exact .refl _)
    (fun depth => by rw [heach depth])

/-- **A sequence can be spliced** into the nodes around it. -/
theorem splice (kind : SequenceKind) (nodes : List Node) :
    Interchangeable o [.sequence kind nodes] nodes := by
  refine of_joinAlike (fun depth => ?_) (fun depth => ?_)
  · simp only [renderEach, Node.render, Logged.value_bind, Logged.value_pure]
    have hne : ∀ text ∈ (renderEach o depth nodes).value.filter (· ≠ ""), text ≠ "" :=
      fun text ht => by simpa using (List.mem_filter.mp ht).2
    -- with no text among the nodes, the sequence is left out as well
    have h : JoinAlike o.lineEnding.text
        ([o.stackNonEmpty (renderEach o depth nodes).value].filter (· ≠ ""))
        ((renderEach o depth nodes).value.filter (· ≠ "") ++ []) :=
      JoinAlike.filter_cons rfl hne (.refl [])
    rwa [List.append_nil] at h
  · simp only [renderEach, Node.render, Logged.events_bind, Logged.events_pure, List.append_nil]

end Interchangeable

/-- A sequence of one node is rendered as the node. -/
theorem render_sequence_singleton (kind : SequenceKind) (node : Node) (depth : Nat) :
    (Node.sequence kind [node]).render o depth = node.render o depth := by
  ext1
  · simp only [Node.render, renderEach, Logged.value_bind, Logged.value_pure,
      Options.stackNonEmpty, joinNonEmpty]
    by_cases h : (node.render o depth).value = ""
    · rw [h]
      rfl
    · rw [List.filter_cons_of_pos (by simpa using h), List.filter_nil, String.intercalate_singleton]
  · simp only [Node.render, renderEach, Logged.events_bind, Logged.events_pure, List.append_nil]

/-- A block under a header is a sequence under a header. -/
theorem Body.render_block (nodes : List Node) (depth : Nat) :
    (Body.block nodes).render o depth
      = do return o.suite depth (← (Node.sequence .codeBlock nodes).render o depth) := by
  simp only [Body.render, Node.render, bind_assoc, pure_bind]

/-- A body of one node is a block of that node. -/
theorem Body.render_single (node : Node) (depth : Nat) :
    (Body.single node).render o depth = (Body.block [node]).render o depth := by
  rw [Body.render_block, render_sequence_singleton, Body.render]

/-- What is below the header of a function is a block. -/
theorem Node.render_method (returnType name : String) (args body : List Node) (depth : Nat) :
    (Node.method returnType name args body).render o depth
      = do
        let suite ← (Body.block body).render o (depth + 1)
        return o.stack
          (o.line depth ("def " ++ name ++ "(" ++ ", ".intercalate (parameterNames args) ++ "):")
            :: suite) := by
  simp only [Body.render, Node.render, bind_assoc, pure_bind]

/-- Interchangeable lists make the same blocks. -/
theorem Interchangeable.render_block {o : Options} {nodes others : List Node}
    (h : Interchangeable o nodes others) (depth : Nat) :
    (Body.block nodes).render o depth = (Body.block others).render o depth := by
  rw [Body.render_block, Body.render_block, h.render_eq]

/-! ## Flattening is an exchange -/

mutual

/-- **A node and its flat list are interchangeable.** -/
theorem Node.interchangeable_flat : ∀ node : Node, Interchangeable o node.flat [node]
  | .sequence kind nodes => (interchangeable_flatOf nodes).trans (.symm (.splice kind nodes))
  | .wrapper kind inner =>
    (Node.interchangeable_flat inner).trans (.of_render_eq fun _ => rfl)
  | .token text => .of_joinAlike (fun _ => .refl _) (fun _ => rfl)
  | .conditional condition body next => .of_render_eq fun depth => by
    rw [Node.render, Node.render, Body.render_flat body (depth + 1),
      Continuation.render_flat next depth]
  | .whileLoop condition body => .of_render_eq fun depth => by
    rw [Node.render, Node.render, Body.render_flat body (depth + 1)]
  | .method _ name args body => .of_render_eq fun depth => by
    rw [Node.render_method, Node.render_method,
      (interchangeable_flatOf body).render_block (depth + 1)]
  | .declaration _ | .assignment _ _ _ | .expression _ | .operator _ | .literal _
  | .returnExpr _ | .call _ _ => .refl _

/-- Nodes and their flat list are interchangeable. -/
theorem interchangeable_flatOf : ∀ nodes : List Node, Interchangeable o (flatOf nodes) nodes
  | [] => .refl []
  | node :: nodes => (Node.interchangeable_flat node).append (interchangeable_flatOf nodes)

/-- **A body and its flat block have the same lines.** -/
theorem Body.render_flat : ∀ (body : Body) (depth : Nat),
    body.flat.render o depth = body.render o depth
  | .absent, _ => rfl
  | .block nodes, depth => (interchangeable_flatOf nodes).render_block depth
  | .single node, depth => by
    rw [Body.render_single]
    exact (Node.interchangeable_flat node).render_block depth

/-- The clauses after an `if` have the same lines with flat bodies. -/
theorem Continuation.render_flat : ∀ (next : Continuation) (depth : Nat),
    next.flat.render o depth = next.render o depth
  | .done, _ => rfl
  | .elif condition body next, depth => by
    rw [Continuation.flat, Continuation.render, Continuation.render,
      Body.render_flat body (depth + 1), Continuation.render_flat next depth]
  | .otherwise body, depth => by
    rw [Continuation.flat, Continuation.render, Continuation.render,
      Body.render_flat body (depth + 1)]

end

/-- A program is rendered as a sequence of its nodes. -/
theorem Program.render_eq (p : Program) (kind : SequenceKind) :
    p.render o = (Node.sequence kind p.body).render o 0 := by
  rw [Program.render, Node.render]

end Render

/-- **Sequences, wrappers and punctuation carry no meaning in statement
position.** The flat list of some nodes, which has none of them and no body
without braces, can take the place of the nodes in every sequence, at every
depth: the text is the same, and so are the events. So a program and its flat
form have the same text and the same events. An empty block is no different
from a body that is not there. -/
theorem render_flat_eq (o : Options) :
    (∀ nodes : List Node, areFlat (flatOf nodes) = true
        ∧ ∀ (kind : SequenceKind) (before after : List Node) (depth : Nat),
          (Node.sequence kind (before ++ flatOf nodes ++ after)).render o depth
            = (Node.sequence kind (before ++ nodes ++ after)).render o depth)
      ∧ (∀ (body : Body) (depth : Nat), body.flat.isFlat = true
          ∧ body.flat.render o depth = body.render o depth)
      ∧ (∀ p : Program, p.flat.render o = p.render o)
      ∧ ∀ depth : Nat, (Body.block []).render o depth = Body.absent.render o depth := by
  refine ⟨fun nodes => ⟨areFlat_flatOf nodes, interchangeable_flatOf o nodes⟩,
    fun body depth => ⟨body.isFlat_flat, body.render_flat o depth⟩, fun p => ?_, fun depth => ?_⟩
  · rw [p.flat.render_eq o .statements, p.render_eq o .statements]
    exact (interchangeable_flatOf o p.body).render_eq .statements 0
  · simp only [Body.render, renderEach, pure_bind]
    rfl

end Offside
