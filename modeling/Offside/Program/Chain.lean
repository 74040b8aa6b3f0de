import Offside.Program.Basic

/-!
# Chains of conditions

A conditional is built clause by clause: start with an `if`, add `elif`
branches, close with an `else`. Each step puts something at the **end of the
chain**, which is found by following the `elif` clauses. What stood there is
replaced: a branch added after an `else` takes the place of that `else`, so
a chain never has two of them, and an `else` is always last.

A branch that is added may be a chain itself. It is added whole.
-/

namespace Offside

namespace Continuation

/-- **A chain with another end**: `tail` follows the last `elif`, in place of
the `else` if there is one. -/
def withTail : Continuation → Continuation → Continuation
  | elif condition body next, tail => elif condition body (next.withTail tail)
  | done, tail => tail
  | otherwise _, tail => tail

@[simp] theorem done_withTail (tail : Continuation) : done.withTail tail = tail := rfl

@[simp] theorem otherwise_withTail (body : Body) (tail : Continuation) :
    (otherwise body).withTail tail = tail := rfl

@[simp] theorem elif_withTail (condition : Expression) (body : Body) (next tail : Continuation) :
    (elif condition body next).withTail tail = elif condition body (next.withTail tail) := rfl

/-- **Ends nest**: a chain with an end that is a chain with an end. -/
theorem withTail_withTail (c d e : Continuation) :
    (c.withTail d).withTail e = c.withTail (d.withTail e) :=
  match c with
  | elif condition body next =>
    congrArg (elif condition body) (withTail_withTail next d e)
  | done => rfl
  | otherwise _ => rfl

end Continuation

namespace Conditional

/-- **Add an `elif`** after the last condition of the chain. -/
def elif (c branch : Conditional) : Conditional :=
  { c with next := c.next.withTail branch.toContinuation }

/-- **Close the chain with an `else`.** -/
def otherwise (c : Conditional) (body : Body) : Conditional :=
  { c with next := c.next.withTail (.otherwise body) }

end Conditional

end Offside
