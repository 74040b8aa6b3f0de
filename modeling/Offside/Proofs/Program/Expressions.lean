import Offside.Proofs.Program.Strings

/-!
# The expressions of a program

An expression is what an assignment assigns, what a function returns, what a
condition asks and what stands on its own as one. `Node.expressions` lists all
of them, at whatever depth, within other expressions and within arguments and
parameters as well. What has to hold of the layout of every expression is said
of this list.
-/

namespace Offside

mutual

/-- **The expressions in a node**, at whatever depth. -/
def Node.expressions : Node → List Expression
  | .sequence _ nodes => expressionsOf nodes
  | .wrapper _ inner => inner.expressions
  | .declaration _ | .operator _ | .literal _ | .token _ => []
  | .assignment _ _ value | .expression value | .returnExpr value =>
    value :: expressionsOf value
  | .conditional condition body next =>
    condition :: expressionsOf condition ++ body.expressions ++ next.expressions
  | .whileLoop condition body => condition :: expressionsOf condition ++ body.expressions
  | .method _ _ args body => expressionsOf args ++ expressionsOf body
  | .call _ args => expressionsOf args

/-- The expressions in nodes. -/
def expressionsOf : List Node → List Expression
  | [] => []
  | node :: nodes => node.expressions ++ expressionsOf nodes

/-- The expressions in a body. -/
def Body.expressions : Body → List Expression
  | .absent => []
  | .block nodes => expressionsOf nodes
  | .single node => node.expressions

/-- The expressions in the clauses after an `if`. -/
def Continuation.expressions : Continuation → List Expression
  | .done => []
  | .elif condition body next =>
    condition :: expressionsOf condition ++ body.expressions ++ next.expressions
  | .otherwise body => body.expressions

end

/-- The expressions in a program. -/
def Program.expressions (p : Program) : List Expression := expressionsOf p.body

/-- **Expressions whose strings are all among these.** -/
def WrittenIn (words : List String) (expressions : List Expression) : Prop :=
  ∀ e ∈ expressions, stringsOf e ⊆ words

namespace WrittenIn

variable {words more : List String} {es fs : List Expression}

theorem nil : WrittenIn words [] := List.forall_mem_nil _

theorem mono (h : WrittenIn words es) (hw : words ⊆ more) : WrittenIn more es :=
  fun e he => List.Subset.trans (h e he) hw

theorem append (h : WrittenIn words es) (h' : WrittenIn more fs) :
    WrittenIn (words ++ more) (es ++ fs) :=
  List.forall_mem_append.mpr ⟨h.mono (List.subset_append_left _ _),
    h'.mono (List.subset_append_right _ _)⟩

/-- An expression with the expressions in it. -/
theorem cons {e : Expression} (h : WrittenIn (stringsOf e) es) :
    WrittenIn (stringsOf e) (e :: es) :=
  List.forall_mem_cons.mpr ⟨List.Subset.refl _, h⟩

end WrittenIn

mutual

/-- **The strings of an expression in a node are among those of the node.** -/
theorem Node.writtenIn_strings : ∀ node : Node, WrittenIn node.strings node.expressions
  | .sequence _ nodes => writtenIn_stringsOf nodes
  | .wrapper _ inner => inner.writtenIn_strings
  | .declaration _ | .operator _ | .literal _ | .token _ => .nil
  | .assignment target op value =>
    (WrittenIn.cons (writtenIn_stringsOf value)).mono
      (List.Subset.trans (List.subset_cons_self op _)
        (List.subset_append_right target.strings _))
  | .expression value | .returnExpr value => .cons (writtenIn_stringsOf value)
  | .conditional condition body next =>
    ((WrittenIn.cons (writtenIn_stringsOf condition)).append body.writtenIn_strings).append
      next.writtenIn_strings
  | .whileLoop condition body =>
    (WrittenIn.cons (writtenIn_stringsOf condition)).append body.writtenIn_strings
  | .method returnType name args body =>
    ((writtenIn_stringsOf args).append (writtenIn_stringsOf body)).mono
      (List.Subset.trans (List.subset_cons_self name _) (List.subset_cons_self returnType _))
  | .call name args => (writtenIn_stringsOf args).mono (List.subset_cons_self name _)

/-- The strings of an expression in nodes are among those of the nodes. -/
theorem writtenIn_stringsOf : ∀ nodes : List Node,
    WrittenIn (stringsOf nodes) (expressionsOf nodes)
  | [] => .nil
  | node :: nodes => node.writtenIn_strings.append (writtenIn_stringsOf nodes)

/-- The strings of an expression in a body are among those of the body. -/
theorem Body.writtenIn_strings : ∀ body : Body, WrittenIn body.strings body.expressions
  | .absent => .nil
  | .block nodes => writtenIn_stringsOf nodes
  | .single node => node.writtenIn_strings

/-- The strings of an expression in some clauses are among those of the clauses. -/
theorem Continuation.writtenIn_strings : ∀ next : Continuation,
    WrittenIn next.strings next.expressions
  | .done => .nil
  | .elif condition body next =>
    ((WrittenIn.cons (writtenIn_stringsOf condition)).append body.writtenIn_strings).append
      next.writtenIn_strings
  | .otherwise body => body.writtenIn_strings

end

end Offside
