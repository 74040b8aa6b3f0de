import Offside.Program.Json
import Offside.Proofs.Json.Decoding

/-!
# Programs are read back

A program that is written as a value is read back as itself
(`Program.ofText_written`), as long as no more brackets are open at once than
may be. Since the text determines the program, nothing of a program is lost in
it: a body that is missing is told from a body without nodes, an `else` without
a body from no `else` at all, and one node from a block of it.

Every decoder is given the room for brackets that is left, and passes one less
on to what stands in a bracket of its own. So the statement to carry through
the nodes is that a value is read wherever there is room for it
(`ReadsWithin`), and the depth of a value is exactly the room it takes.
-/

namespace Offside

open Json Json.Decoder

/-! ## The records -/

theorem nodesToJson_eq_map (nodes : List Node) : nodesToJson nodes = nodes.map Node.toJson := by
  induction nodes with
  | nil => rfl
  | cons node nodes ih => rw [nodesToJson, ih, List.map_cons]

theorem Declaration.reads (d : Declaration) : ReadsWithin Declaration.decode d.toJson d := by
  refine .object fun _ _ => ?_
  refine .map (.record_of_lists (d.ty, d.name, ()) (of_decide_eq_true rfl) ?_) rfl
  exact ⟨rfl, .string _, rfl, .string _, trivial⟩

theorem AssignTarget.reads (t : AssignTarget) : ReadsWithin AssignTarget.decode t.toJson t := by
  cases t with
  | declaration d => exact .variant (fun _ _ => rfl) (fun _ => rfl) (d.reads.map rfl)
  | name n =>
    exact .variant (fun _ _ => rfl) (fun _ => rfl) fun _ _ => .map (.string n) rfl

theorem decodeTexts_reads (texts : List String) :
    ReadsWithin decodeTexts (.ofStrings texts) texts :=
  .array fun _ _ => Reads.sequence fun text _ => .string text

/-! ## Nodes -/

/-- All of these nodes are read. -/
def NodesRead (nodes : List Node) : Prop :=
  ∀ node ∈ nodes, ReadsWithin Node.decode node.toJson node

variable {nodes condition value args : List Node} {body : Body} {next : Continuation}

theorem decodeNodes_reads (h : NodesRead nodes) :
    ReadsWithin decodeNodes (.array (nodesToJson nodes)) nodes := by
  refine .array fun room hroom => ?_
  rw [nodesToJson_eq_map] at hroom ⊢
  exact Reads.sequence fun node hnode => h node hnode room (hroom _ (List.mem_map_of_mem hnode))

theorem Expression.reads (h : NodesRead value) :
    ReadsWithin Expression.decode (Expression.toJson value) value := by
  refine .object fun room hroom => ?_
  refine .map (.record_of_lists (value, ()) (of_decide_eq_true rfl) ?_) rfl
  exact ⟨rfl, decodeNodes_reads h room (hroom _ List.mem_cons_self), trivial⟩

theorem decodeAssignment_reads (target : AssignTarget) (op : String) (h : NodesRead value) :
    ReadsWithin decodeAssignment (.object [("target", target.toJson), ("op", .string op),
      ("value", Expression.toJson value)]) (.assignment target op value) := by
  refine .object fun room hroom => ?_
  simp only [List.forall_mem_cons] at hroom
  obtain ⟨ht, _, hv, _⟩ := hroom
  refine .map (.record_of_lists (target, op, value, ()) (of_decide_eq_true rfl) ?_) rfl
  exact ⟨rfl, target.reads room ht, rfl, .string _, rfl, Expression.reads h room hv, trivial⟩

theorem decodeMethod_reads (returnType name : String) (hargs : NodesRead args)
    (h : NodesRead nodes) :
    ReadsWithin decodeMethod (.object [("return_type", .string returnType),
      ("name", .string name), ("args", .array (nodesToJson args)),
      ("body", .array (nodesToJson nodes))]) (.method returnType name args nodes) := by
  refine .object fun room hroom => ?_
  simp only [List.forall_mem_cons] at hroom
  obtain ⟨_, _, ha, hb, _⟩ := hroom
  refine .map (.record_of_lists (returnType, name, args, nodes, ())
    (of_decide_eq_true rfl) ?_) rfl
  exact ⟨rfl, .string _, rfl, .string _, rfl, decodeNodes_reads hargs room ha, rfl,
    decodeNodes_reads h room hb, trivial⟩

theorem decodeCall_reads (name : String) (hargs : NodesRead args) :
    ReadsWithin decodeCall (.object [("name", .string name),
      ("args", .array (nodesToJson args))]) (.call name args) := by
  refine .object fun room hroom => ?_
  simp only [List.forall_mem_cons] at hroom
  obtain ⟨_, ha, _⟩ := hroom
  refine .map (.record_of_lists (name, args, ()) (of_decide_eq_true rfl) ?_) rfl
  exact ⟨rfl, .string _, rfl, decodeNodes_reads hargs room ha, trivial⟩

/-! ## Bodies and continuations -/

/-- **Reads a body that may be missing.** -/
def Body.decode? (room : Nat) : Json.Decoder Body :=
  map (·.getD .absent) (nullable (Body.decode room))

/-- **Reads a continuation that may be missing.** -/
def Continuation.decode? (room : Nat) : Json.Decoder Continuation :=
  map (·.getD .done) (nullable (Continuation.decode room))

theorem decodeWhile_reads (h : NodesRead condition)
    (hbody : ReadsWithin Body.decode? body.toJson body) :
    ReadsWithin decodeWhile (.object [("condition", Expression.toJson condition),
      ("body", body.toJson)]) (.whileLoop condition body) := by
  refine .object fun room hroom => ?_
  simp only [List.forall_mem_cons] at hroom
  obtain ⟨hc, hb, _⟩ := hroom
  refine .map (.record_of_lists (condition, body, ()) (of_decide_eq_true rfl) ?_) rfl
  exact ⟨rfl, Expression.reads h room hc, rfl, hbody room hb, trivial⟩

theorem Conditional.reads {c : Conditional} (h : NodesRead c.condition)
    (hbody : ReadsWithin Body.decode? c.body.toJson c.body)
    (hnext : ReadsWithin Continuation.decode? c.next.toJson c.next) :
    ReadsWithin Conditional.decode c.toJson c := by
  refine .object fun room hroom => ?_
  simp only [List.forall_mem_cons] at hroom
  obtain ⟨hc, hb, hn, _⟩ := hroom
  refine .map (.record_of_lists (c.condition, c.body, c.next, ())
    (of_decide_eq_true rfl) ?_) rfl
  exact ⟨rfl, Expression.reads h room hc, rfl, hbody room hb, rfl, hnext room hn, trivial⟩

/-- The decoders of the content of a node, with room for so many brackets. -/
def NodeDecoders.within (room : Nat) : NodeDecoders where
  node := Node.decode room
  nodes := decodeNodes room
  texts := decodeTexts room
  declaration := Declaration.decode room
  assignment := decodeAssignment room
  expression := Expression.decode room
  conditional := Conditional.decode room
  whileLoop := decodeWhile room
  method := decodeMethod room
  call := decodeCall room

/-- **A node** is read as soon as its content is. -/
theorem Node.reads_tagged {tag : String} {v : Json} {node : Node}
    {decode : Nat → Json.Decoder Node}
    (htag : ∀ room, (Node.cases (.within room)).lookup tag = some (decode room))
    (h : ReadsWithin decode v node) : ReadsWithin Node.decode (.tagged tag v) node :=
  .variant (fun _ _ => rfl) htag h

/-- A body that is there is read as soon as its content is. -/
theorem Body.reads_tagged {tag : String} {v : Json} {decode : Nat → Json.Decoder Body}
    (htag : ∀ room, (Body.cases (Node.decode room) (decodeNodes room)).lookup tag
      = some (decode room))
    (h : ReadsWithin decode v body) : ReadsWithin Body.decode? (.tagged tag v) body :=
  .nullable (.variant (fun _ _ => rfl) htag h)

/-- A continuation that is there is read as soon as its content is. -/
theorem Continuation.reads_tagged {tag : String} {v : Json}
    {decode : Nat → Json.Decoder Continuation}
    (htag : ∀ room, (Continuation.cases (Conditional.decode room) (Body.decode room)).lookup tag
      = some (decode room))
    (h : ReadsWithin decode v next) :
    ReadsWithin Continuation.decode? (.tagged tag v) next :=
  .nullable (.variant (fun _ _ => rfl) htag h)

mutual

/-- **Every node is read back** wherever there is room for it. -/
theorem Node.reads : ∀ node : Node, ReadsWithin Node.decode node.toJson node
  | .sequence kind nodes => by
    have h := decodeNodes_reads (nodesRead nodes)
    cases kind with
    | statements => exact Node.reads_tagged (fun _ => rfl) (h.map rfl)
    | controlConstructs => exact Node.reads_tagged (fun _ => rfl) (h.map rfl)
    | codeBlock => exact Node.reads_tagged (fun _ => rfl) (h.map rfl)
  | .wrapper kind inner => by
    have h := Node.reads inner
    cases kind with
    | statement => exact Node.reads_tagged (fun _ => rfl) (h.map rfl)
    | controlConstruct => exact Node.reads_tagged (fun _ => rfl) (h.map rfl)
    | cycle => exact Node.reads_tagged (fun _ => rfl) (h.map rfl)
  | .declaration d => Node.reads_tagged (fun _ => rfl) (d.reads.map rfl)
  | .assignment target op value =>
    Node.reads_tagged (fun _ => rfl) (decodeAssignment_reads target op (nodesRead value))
  | .expression parts =>
    Node.reads_tagged (fun _ => rfl) ((Expression.reads (nodesRead parts)).map rfl)
  | .operator tokens => Node.reads_tagged (fun _ => rfl) ((decodeTexts_reads tokens).map rfl)
  | .literal tokens => Node.reads_tagged (fun _ => rfl) ((decodeTexts_reads tokens).map rfl)
  | .conditional condition body next =>
    Node.reads_tagged (fun _ => rfl) ((Conditional.reads (c := ⟨condition, body, next⟩)
      (nodesRead condition) (Body.reads body) (Continuation.reads next)).map rfl)
  | .whileLoop condition body =>
    Node.reads_tagged (fun _ => rfl) (decodeWhile_reads (nodesRead condition) (Body.reads body))
  | .method returnType name args body =>
    Node.reads_tagged (fun _ => rfl)
      (decodeMethod_reads returnType name (nodesRead args) (nodesRead body))
  | .returnExpr value =>
    Node.reads_tagged (fun _ => rfl) ((Expression.reads (nodesRead value)).map rfl)
  | .call name args => Node.reads_tagged (fun _ => rfl) (decodeCall_reads name (nodesRead args))
  | .token text => Node.reads_tagged (fun _ => rfl) fun _ _ => .map (.string text) rfl

theorem nodesRead : ∀ nodes : List Node, NodesRead nodes
  | [] => fun _ h => absurd h List.not_mem_nil
  | node :: nodes => List.forall_mem_cons.mpr ⟨Node.reads node, nodesRead nodes⟩

/-- **Every body is read back**, and a missing one as missing. -/
theorem Body.reads : ∀ body : Body, ReadsWithin Body.decode? body.toJson body
  | .absent => fun _ _ => .map .nullable_null rfl
  | .block nodes => Body.reads_tagged (fun _ => rfl) ((decodeNodes_reads (nodesRead nodes)).map rfl)
  | .single node => Body.reads_tagged (fun _ => rfl) ((Node.reads node).map rfl)

/-- **Every continuation is read back**, and a missing one as missing. -/
theorem Continuation.reads : ∀ next : Continuation,
    ReadsWithin Continuation.decode? next.toJson next
  | .done => fun _ _ => .map .nullable_null rfl
  | .elif condition body next =>
    Continuation.reads_tagged (fun _ => rfl) ((Conditional.reads (c := ⟨condition, body, next⟩)
      (nodesRead condition) (Body.reads body) (Continuation.reads next)).map rfl)
  | .otherwise body => by
    refine Continuation.reads_tagged (fun _ => rfl) fun room hroom => ?_
    obtain ⟨body?, hread, hbody⟩ := (Body.reads body room hroom).exists_of_map
    exact .map hread (congrArg Continuation.otherwise hbody)

end

/-! ## Programs -/

/-- **Every program is read back** from its value. -/
theorem Program.reads (p : Program) : ReadsWithin Program.decode p.toJson p := by
  refine .object fun room hroom => ?_
  refine .map (.record_of_lists (p.body, ()) (of_decide_eq_true rfl) ?_) rfl
  exact ⟨rfl, decodeNodes_reads (nodesRead p.body) room (hroom _ List.mem_cons_self), trivial⟩

/-! ## Texts -/

namespace Json.HasDigits

theorem tagged {tag : String} {v : Json} (h : v.HasDigits) : (Json.tagged tag v).HasDigits :=
  .object (List.forall_mem_singleton.mpr h)

theorem ofStrings (texts : List String) : (Json.ofStrings texts).HasDigits := by
  refine .array fun v hv => ?_
  obtain ⟨text, -, rfl⟩ := List.mem_map.mp hv
  exact .string text

end Json.HasDigits

theorem Declaration.hasDigits (d : Declaration) : d.toJson.HasDigits :=
  .object (by simp [HasDigits.string])

theorem AssignTarget.hasDigits (t : AssignTarget) : t.toJson.HasDigits := by
  cases t with
  | declaration d => exact .tagged d.hasDigits
  | name n => exact .tagged (.string n)

theorem Expression.hasDigits (h : ∀ v ∈ nodesToJson value, v.HasDigits) :
    (Expression.toJson value).HasDigits :=
  .object (by simpa using HasDigits.array h)

theorem Conditional.hasDigits {c : Conditional} (h : ∀ v ∈ nodesToJson c.condition, v.HasDigits)
    (hbody : c.body.toJson.HasDigits) (hnext : c.next.toJson.HasDigits) : c.toJson.HasDigits :=
  .object (by simpa using ⟨Expression.hasDigits h, hbody, hnext⟩)

mutual

/-- The value of a node holds no numerals. -/
theorem Node.hasDigits : ∀ node : Node, node.toJson.HasDigits
  | .sequence _ nodes => .tagged (.array (nodesToJson_hasDigits nodes))
  | .wrapper _ inner => .tagged (Node.hasDigits inner)
  | .declaration d => .tagged d.hasDigits
  | .assignment target op value =>
    have h := Expression.hasDigits (nodesToJson_hasDigits value)
    .tagged (.object (by simpa using ⟨target.hasDigits, .string op, h⟩))
  | .expression parts => .tagged (Expression.hasDigits (nodesToJson_hasDigits parts))
  | .operator tokens => .tagged (.ofStrings tokens)
  | .literal tokens => .tagged (.ofStrings tokens)
  | .conditional condition body next =>
    .tagged (Conditional.hasDigits (c := ⟨condition, body, next⟩) (nodesToJson_hasDigits condition)
      (Body.hasDigits body) (Continuation.hasDigits next))
  | .whileLoop condition body =>
    have h := Expression.hasDigits (nodesToJson_hasDigits condition)
    .tagged (.object (by simpa using ⟨h, Body.hasDigits body⟩))
  | .method returnType name args body =>
    have hargs := HasDigits.array (nodesToJson_hasDigits args)
    have hbody := HasDigits.array (nodesToJson_hasDigits body)
    .tagged (.object (by simpa using ⟨.string returnType, .string name, hargs, hbody⟩))
  | .returnExpr value => .tagged (Expression.hasDigits (nodesToJson_hasDigits value))
  | .call name args =>
    have hargs := HasDigits.array (nodesToJson_hasDigits args)
    .tagged (.object (by simpa using ⟨.string name, hargs⟩))
  | .token text => .tagged (.string text)

theorem nodesToJson_hasDigits : ∀ nodes : List Node, ∀ v ∈ nodesToJson nodes, v.HasDigits
  | [] => fun _ h => absurd h List.not_mem_nil
  | node :: nodes => List.forall_mem_cons.mpr ⟨Node.hasDigits node, nodesToJson_hasDigits nodes⟩

theorem Body.hasDigits : ∀ body : Body, body.toJson.HasDigits
  | .absent => .null
  | .block nodes => .tagged (.array (nodesToJson_hasDigits nodes))
  | .single node => .tagged (Node.hasDigits node)

theorem Continuation.hasDigits : ∀ next : Continuation, next.toJson.HasDigits
  | .done => .null
  | .elif condition body next =>
    .tagged (Conditional.hasDigits (c := ⟨condition, body, next⟩) (nodesToJson_hasDigits condition)
      (Body.hasDigits body) (Continuation.hasDigits next))
  | .otherwise body => .tagged (Body.hasDigits body)

end

theorem Program.hasDigits (p : Program) : p.toJson.HasDigits :=
  .object (by simpa using HasDigits.array (nodesToJson_hasDigits p.body))

/-- **Two programs never have the same text**, in either form and however deep
they nest. -/
theorem Program.eq_of_written_eq {p q : Program}
    (h : p.toJson.pretty = q.toJson.pretty ∨ p.toJson.compact = q.toJson.compact) : p = q := by
  -- the texts are scanned to the drafts of the programs, whatever their depth
  have hdraft : p.toJson.draft = q.toJson.draft := by
    rcases h with h | h
    · have ho := outcome_pretty p.hasDigits
      rw [h, outcome_pretty q.hasDigits] at ho
      exact (congrArg Outcome.draft ho).symm
    · have ho := outcome_compact p.hasDigits
      rw [h, outcome_compact q.hasDigits] at ho
      exact (congrArg Outcome.draft ho).symm
  have hp := p.reads (max p.toJson.depth q.toJson.depth) (Nat.le_max_left _ _)
  have hq := q.reads (max p.toJson.depth q.toJson.depth) (Nat.le_max_right _ _)
  rw [Reads, hdraft] at hp
  exact Except.ok.inj (hp.symm.trans hq)

/-- **What is written of a program is read back as the program**, in the pretty
form and in the compact form, if at most 127 brackets are open at once. -/
theorem Program.ofText_written (p : Program) (h : p.toJson.depth ≤ 127) :
    Program.ofText p.toJson.pretty = .ok p ∧ Program.ofText p.toJson.compact = .ok p := by
  have hread : (Program.decode maxDepth).Reads p.toJson p := p.reads maxDepth h
  have hwritten := hread.ofText p.hasDigits
  exact ⟨hwritten.2, hwritten.1⟩

/-- A conditional without a body whose `else` has none either, after a loop
over a block with one node and a loop over that node alone. -/
def sparseProgram : Program :=
  ⟨[.whileLoop [.literal ["a"]] (.block [.literal ["\"b\""]]),
    .whileLoop [.literal ["a"]] (.single (.literal ["\"b\""])),
    .conditional [] .absent (.otherwise .absent), .conditional [] .absent .done]⟩

theorem sparseProgram_ofText_written : sparseProgram.toJson.depth ≤ 127
    ∧ Program.ofText sparseProgram.toJson.pretty = .ok sparseProgram
    ∧ Program.ofText sparseProgram.toJson.compact = .ok sparseProgram :=
  ⟨by decide, sparseProgram.ofText_written (by decide)⟩

end Offside
