import Offside.Proofs.Layout.Erasure

/-!
# Which arguments are dropped, and when that is said

A layout logs every argument that a call drops. What is logged is no part of
the text, and so a call that was rendered twice, or rendered for nothing, would
not be noticed there. This module says what the log is without rendering
anything.

`Node.callSites` walks through a node in source order and lists every call in
it, with its arguments from left to right, wherever they stand. Each **site**
carries what it lies within, as far as that decides whether it is reached: the
arguments of calls around it, and the arguments of a function. A site is
rendered if nothing it lies within is left out, and `events_render_eq` says
that the log has one event for each argument at a rendered site that is
dropped, in the order of the sites, and nothing else. Depth, indentation, line
endings and the treatment of empty bodies do not come into it.

Calls that drop nothing leave no event. To see that they are rendered, and how
often, a call can be made to announce itself: an argument that no call keeps is
put in front of its arguments, and is logged whenever the call is rendered.
With all calls of a node announced (`Node.announced`), the log has one more
event for every call at a rendered site.
-/

namespace Offside

variable {mode : CallArguments}

/-! ## Sites -/

/-- **What may leave out the calls within it.** -/
inductive Enclosure where
  /-- An argument of a call. -/
  | argument (arg : Node)
  /-- The arguments of a function, of which only the names are written. -/
  | parameters

/-- **A call, or an argument of a call**, at the place where it stands. -/
structure CallSite where
  /-- What the call lies within, the outermost first. -/
  within : List Enclosure
  /-- The name of the call. -/
  callee : String
  /-- The argument, unless this is the call itself. -/
  argument? : Option Node

/-- A site that lies within something more. -/
def CallSite.inside (e : Enclosure) (s : CallSite) : CallSite := { s with within := e :: s.within }

mutual

/-- **The call sites of a node**, in source order. -/
def Node.callSites : Node → List CallSite
  | .sequence _ nodes => callSitesOf nodes
  | .wrapper _ inner => inner.callSites
  | .declaration _ | .operator _ | .literal _ | .token _ => []
  | .assignment _ _ value | .expression value | .returnExpr value => callSitesOf value
  | .conditional condition body next => callSitesOf condition ++ body.callSites ++ next.callSites
  | .whileLoop condition body => callSitesOf condition ++ body.callSites
  | .method _ _ args body => (callSitesOf args).map (.inside .parameters) ++ callSitesOf body
  | .call name args => ⟨[], name, none⟩ :: argumentSites name args

/-- The call sites of nodes one after the other. -/
def callSitesOf : List Node → List CallSite
  | [] => []
  | node :: nodes => node.callSites ++ callSitesOf nodes

/-- The sites of the arguments of a call of `callee`, each with the sites in it. -/
def argumentSites (callee : String) : List Node → List CallSite
  | [] => []
  | arg :: args =>
    ⟨[], callee, some arg⟩ :: arg.callSites.map (.inside (.argument arg))
      ++ argumentSites callee args

/-- The call sites of a body. -/
def Body.callSites : Body → List CallSite
  | .absent => []
  | .block nodes => callSitesOf nodes
  | .single node => node.callSites

/-- The call sites of the clauses after an `if`. -/
def Continuation.callSites : Continuation → List CallSite
  | .done => []
  | .elif condition body next => callSitesOf condition ++ body.callSites ++ next.callSites
  | .otherwise body => body.callSites

end

/-- **Whether an argument is one that calls drop**: it is no literal and no
punctuation and, if expressions are kept, no expression and no call. -/
def Node.isDropped (mode : CallArguments) : Node → Bool
  | .literal _ | .token _ => false
  | .expression _ | .call _ _ => mode ≠ .expressions
  | _ => true

theorem Node.fate_eq_dropped_iff {arg : Node} :
    mode.fate arg = .dropped ↔ arg.isDropped mode = true := by
  cases arg <;> cases mode <;> simp [CallArguments.fate, Node.isDropped]

/-- Punctuation has no calls in it. -/
theorem Node.callSites_of_skipped {arg : Node} (h : mode.fate arg = .skipped) :
    arg.callSites = [] := by
  cases arg with
  | token _ => rfl
  | _ => cases mode <;> exact nomatch h

/-- Whether an enclosure is rendered with what is in it. -/
def Enclosure.isRendered (mode : CallArguments) : Enclosure → Bool
  | argument arg => !arg.isDropped mode
  | parameters => false

namespace CallSite

/-- **Whether a site is rendered**: it lies neither within an argument that is
dropped nor within the arguments of a function. -/
def isRendered (mode : CallArguments) (s : CallSite) : Bool := s.within.all (·.isRendered mode)

/-- **Whether a site is heard of**: it is rendered, and it is an argument that is
dropped, or a call, if calls announce themselves. -/
def isHeard (mode : CallArguments) (announced : Bool) (s : CallSite) : Bool :=
  s.isRendered mode && s.argument?.elim announced (·.isDropped mode)

end CallSite

/-- **The events of sites**: one for each that is heard of, with the name of the
call. -/
def eventsOf (mode : CallArguments) (announced : Bool) (sites : List CallSite) : List Event :=
  (sites.filter (·.isHeard mode announced)).map fun s => .droppedArgument s.callee

section Events

variable {announced : Bool}

@[simp] theorem eventsOf_nil : eventsOf mode announced [] = [] := rfl

@[simp] theorem eventsOf_append (sites others : List CallSite) :
    eventsOf mode announced (sites ++ others)
      = eventsOf mode announced sites ++ eventsOf mode announced others := by
  rw [eventsOf, List.filter_append, List.map_append]
  rfl

/-- The call itself. -/
theorem eventsOf_call (name : String) (sites : List CallSite) :
    eventsOf mode announced (⟨[], name, none⟩ :: sites)
      = (if announced then [.droppedArgument name] else []) ++ eventsOf mode announced sites := by
  cases announced <;> rfl

/-- An argument of a call. -/
theorem eventsOf_argument (name : String) (arg : Node) (sites : List CallSite) :
    eventsOf mode announced (⟨[], name, some arg⟩ :: sites)
      = (if arg.isDropped mode then [.droppedArgument name] else [])
        ++ eventsOf mode announced sites := by
  unfold eventsOf
  rw [List.filter_cons]
  cases h : arg.isDropped mode <;> simp [CallSite.isHeard, CallSite.isRendered, h]

/-- **Nothing is heard of within what is left out.** -/
theorem eventsOf_inside (e : Enclosure) (sites : List CallSite) :
    eventsOf mode announced (sites.map (.inside e))
      = if e.isRendered mode then eventsOf mode announced sites else [] := by
  unfold eventsOf
  rw [List.filter_map, List.map_map]
  have hheard : ∀ s : CallSite, (s.inside e).isHeard mode announced
      = (e.isRendered mode && s.isHeard mode announced) := fun s => by
    rw [CallSite.isHeard, CallSite.isHeard, ← Bool.and_assoc]
    rfl
  split
  case isTrue h =>
    simp only [Function.comp_def, hheard, h, Bool.true_and]
    rfl
  case isFalse h =>
    simp [Function.comp_def, hheard, h]

end Events

/-! ## The events of a rendering -/

section Render

variable (o : Options)

mutual

/-- **The events of a rendering are those of the call sites.** -/
theorem Node.events_render : ∀ (node : Node) (depth : Nat),
    (node.render o depth).events = eventsOf o.callArguments false node.callSites
  | .sequence _ nodes, depth => by
    simp only [Node.render, Logged.events_bind, Logged.events_pure, List.append_nil,
      events_renderEach nodes depth, Node.callSites]
  | .wrapper _ inner, depth => Node.events_render inner depth
  | .declaration _, _ | .operator _, _ | .literal _, _ | .token _, _ => rfl
  | .assignment _ _ value, _ | .expression value, _ | .returnExpr value, _ => by
    simp only [Node.render, Logged.events_bind, Logged.events_pure, List.append_nil,
      events_renderEach value 0, Node.callSites]
  | .conditional condition body next, depth => by
    simp only [Node.render, Logged.events_bind, Logged.events_pure, List.append_nil,
      events_renderEach condition 0, Body.events_render body (depth + 1),
      Continuation.events_render next depth, Node.callSites, eventsOf_append, List.append_assoc]
  | .whileLoop condition body, depth => by
    simp only [Node.render, Logged.events_bind, Logged.events_pure, List.append_nil,
      events_renderEach condition 0, Body.events_render body (depth + 1), Node.callSites,
      eventsOf_append]
  | .method _ _ args body, depth => by
    have hparameters : Enclosure.parameters.isRendered o.callArguments = false := rfl
    simp only [Node.render, Logged.events_bind, Logged.events_pure, List.append_nil,
      events_renderEach body (depth + 1), Node.callSites, eventsOf_append, eventsOf_inside,
      hparameters, Bool.false_eq_true, if_false, List.nil_append]
  | .call name args, _ => by
    simp only [Node.render, Logged.events_bind, Logged.events_pure, List.append_nil,
      events_renderArguments name args, Node.callSites, eventsOf_call, Bool.false_eq_true, if_false,
      List.nil_append]

/-- The events of nodes in the same position. -/
theorem events_renderEach : ∀ (nodes : List Node) (depth : Nat),
    (renderEach o depth nodes).events = eventsOf o.callArguments false (callSitesOf nodes)
  | [], _ => rfl
  | node :: nodes, depth => by
    simp only [renderEach, Logged.events_bind, Logged.events_pure, List.append_nil,
      Node.events_render node depth, events_renderEach nodes depth, callSitesOf, eventsOf_append]

/-- **The events of a call**: one for each argument that it drops, and those of
the arguments that it keeps. -/
theorem events_renderArguments (callee : String) : ∀ args : List Node,
    (renderArguments o callee args).events
      = eventsOf o.callArguments false (argumentSites callee args)
  | [] => rfl
  | arg :: args => by
    have ih := events_renderArguments callee args
    have hdropped : o.callArguments.fate arg = .dropped ↔ arg.isDropped o.callArguments = true :=
      Node.fate_eq_dropped_iff
    rw [argumentSites, List.cons_append, eventsOf_argument, eventsOf_append, eventsOf_inside,
      renderArguments, Enclosure.isRendered]
    cases hf : o.callArguments.fate arg with
    | kept =>
      have hkept : arg.isDropped o.callArguments = false := by simpa [hf] using hdropped
      simp [hkept, Node.events_render arg 0, ih]
    | skipped =>
      have hkept : arg.isDropped o.callArguments = false := by simpa [hf] using hdropped
      simp [hkept, Node.callSites_of_skipped hf, ih]
    | dropped =>
      have hleft : arg.isDropped o.callArguments = true := hdropped.mp hf
      simp [hleft, ih]

/-- The events of a body. -/
theorem Body.events_render : ∀ (body : Body) (depth : Nat),
    (body.render o depth).events = eventsOf o.callArguments false body.callSites
  | .absent, _ => rfl
  | .block nodes, depth => by
    simp only [Body.render, Logged.events_bind, Logged.events_pure, List.append_nil,
      events_renderEach nodes depth, Body.callSites]
  | .single node, depth => by
    simp only [Body.render, Logged.events_bind, Logged.events_pure, List.append_nil,
      Node.events_render node depth, Body.callSites]

/-- The events of the clauses after an `if`. -/
theorem Continuation.events_render : ∀ (next : Continuation) (depth : Nat),
    (next.render o depth).events = eventsOf o.callArguments false next.callSites
  | .done, _ => rfl
  | .elif condition body next, depth => by
    simp only [Continuation.render, Logged.events_bind, Logged.events_pure, List.append_nil,
      events_renderEach condition 0, Body.events_render body (depth + 1),
      Continuation.events_render next depth, Continuation.callSites, eventsOf_append,
      List.append_assoc]
  | .otherwise body, depth => by
    simp only [Continuation.render, Logged.events_bind, Logged.events_pure, List.append_nil,
      Body.events_render body (depth + 1), Continuation.callSites]

end

end Render

/-! ## Calls that announce themselves -/

mutual

/-- **A node whose calls announce themselves**: in front of the arguments of every
call stands one that no call keeps. -/
def Node.announced : Node → Node
  | .sequence kind nodes => .sequence kind (announcedEach nodes)
  | .wrapper kind inner => .wrapper kind inner.announced
  | .assignment target op value => .assignment target op (announcedEach value)
  | .expression parts => .expression (announcedEach parts)
  | .conditional condition body next =>
    .conditional (announcedEach condition) body.announced next.announced
  | .whileLoop condition body => .whileLoop (announcedEach condition) body.announced
  | .method returnType name args body =>
    .method returnType name (announcedEach args) (announcedEach body)
  | .returnExpr value => .returnExpr (announcedEach value)
  | .call name args => .call name (droppedArgument :: announcedEach args)
  | simple => simple

/-- Nodes whose calls announce themselves. -/
def announcedEach : List Node → List Node
  | [] => []
  | node :: nodes => node.announced :: announcedEach nodes

/-- A body whose calls announce themselves. -/
def Body.announced : Body → Body
  | .absent => .absent
  | .block nodes => .block (announcedEach nodes)
  | .single node => .single node.announced

/-- Clauses whose calls announce themselves. -/
def Continuation.announced : Continuation → Continuation
  | .done => .done
  | .elif condition body next => .elif (announcedEach condition) body.announced next.announced
  | .otherwise body => .otherwise body.announced

end

/-- Announcements decide nothing about an argument. -/
theorem Node.isDropped_announced (arg : Node) :
    arg.announced.isDropped mode = arg.isDropped mode := by
  cases arg <;> rfl

mutual

/-- **The events of a node whose calls announce themselves** are those of the sites
of the node, the calls among them. -/
theorem Node.eventsOf_announced : ∀ node : Node,
    eventsOf mode false node.announced.callSites = eventsOf mode true node.callSites
  | .sequence _ nodes => eventsOf_announcedEach nodes
  | .wrapper _ inner => Node.eventsOf_announced inner
  | .declaration _ | .operator _ | .literal _ | .token _ => rfl
  | .assignment _ _ value | .expression value | .returnExpr value => eventsOf_announcedEach value
  | .conditional condition body next => by
    simp only [Node.announced, Node.callSites, eventsOf_append, eventsOf_announcedEach condition,
      Body.eventsOf_announced body, Continuation.eventsOf_announced next]
  | .whileLoop condition body => by
    simp only [Node.announced, Node.callSites, eventsOf_append, eventsOf_announcedEach condition,
      Body.eventsOf_announced body]
  | .method _ _ args body => by
    simp only [Node.announced, Node.callSites, eventsOf_append, eventsOf_inside,
      eventsOf_announcedEach args, eventsOf_announcedEach body]
  | .call name args => by
    -- the announcement is the first argument, and there are no calls in it
    have hannounce : droppedArgument.isDropped mode = true := rfl
    have hsites : droppedArgument.callSites = [] := rfl
    simp only [Node.announced, Node.callSites, argumentSites, eventsOf_call, eventsOf_argument,
      hannounce, hsites, eventsOf_announcedArguments name args, List.map_nil, List.nil_append,
      List.cons_append, Bool.false_eq_true, if_true, if_false]

/-- The events of nodes whose calls announce themselves. -/
theorem eventsOf_announcedEach : ∀ nodes : List Node,
    eventsOf mode false (callSitesOf (announcedEach nodes))
      = eventsOf mode true (callSitesOf nodes)
  | [] => rfl
  | node :: nodes => by
    simp only [announcedEach, callSitesOf, eventsOf_append, Node.eventsOf_announced node,
      eventsOf_announcedEach nodes]

/-- The events of arguments whose calls announce themselves. -/
theorem eventsOf_announcedArguments (callee : String) : ∀ args : List Node,
    eventsOf mode false (argumentSites callee (announcedEach args))
      = eventsOf mode true (argumentSites callee args)
  | [] => rfl
  | arg :: args => by
    have hargument : (Enclosure.argument arg.announced).isRendered mode
        = (Enclosure.argument arg).isRendered mode := congrArg (!·) arg.isDropped_announced
    simp only [announcedEach, argumentSites, List.cons_append, eventsOf_argument, eventsOf_append,
      eventsOf_inside, Node.eventsOf_announced arg, eventsOf_announcedArguments callee args]
    rw [hargument, Node.isDropped_announced]

/-- The events of a body whose calls announce themselves. -/
theorem Body.eventsOf_announced : ∀ body : Body,
    eventsOf mode false body.announced.callSites = eventsOf mode true body.callSites
  | .absent => rfl
  | .block nodes => eventsOf_announcedEach nodes
  | .single node => Node.eventsOf_announced node

/-- The events of clauses whose calls announce themselves. -/
theorem Continuation.eventsOf_announced : ∀ next : Continuation,
    eventsOf mode false next.announced.callSites = eventsOf mode true next.callSites
  | .done => rfl
  | .elif condition body next => by
    simp only [Continuation.announced, Continuation.callSites, eventsOf_append,
      eventsOf_announcedEach condition, Body.eventsOf_announced body,
      Continuation.eventsOf_announced next]
  | .otherwise body => Body.eventsOf_announced body

end

/-- **The log of a layout is complete, and depends on the arguments that calls keep
alone.** It has one event, with the name of the call, for each argument that is
dropped at a call site that is rendered, in source order. If calls announce
themselves it has one more for each call at such a site: a call that lies within
an argument that is dropped, or among the arguments of a function, is not rendered,
and any other is rendered once. With another depth, indentation or line ending, and
with empty bodies treated otherwise, the log is the same. -/
theorem events_render_eq (o : Options) (node : Node) (depth : Nat) :
    (node.render o depth).events
        = (node.callSites.filter (·.isHeard o.callArguments false)).map
          (fun s => .droppedArgument s.callee)
      ∧ (node.announced.render o depth).events
        = (node.callSites.filter (·.isHeard o.callArguments true)).map
          (fun s => .droppedArgument s.callee)
      ∧ ∀ (width : Nat) (ending : LineEnding) (pass : Bool) (other : Nat),
        (node.render ⟨width, ending, pass, o.callArguments⟩ other).events
          = (node.render o depth).events := by
  refine ⟨node.events_render o depth, ?_, fun width ending pass other => ?_⟩
  · rw [node.announced.events_render o depth, node.eventsOf_announced]
    rfl
  · rw [node.events_render, node.events_render]

end Offside
