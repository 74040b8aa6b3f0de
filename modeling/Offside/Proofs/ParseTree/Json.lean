import Offside.ParseTree.Json
import Offside.Proofs.Json.Decoding

/-!
# Parse trees are read back

One parse tree can be written down in many ways. The members of a node may
come in any order and among others that mean nothing, a text that is not there
may be left out or be `null`, and so may an empty list of children be left out
or be written. All of these are **documents** of the tree, and what
`ParseTree.toJson` writes is the shortest of them.

`ParseTree.ofText_document` says that every document of a tree is read as the
tree, as long as no more brackets are open at once than may be. The reader looks
at the members of a node one by one, so what matters is which values a node has
for each of its three names, and this does not depend on the order of the
members (`Json.Decoder.valuesAt_perm`) or on members of other names.
-/

namespace Offside

open Json Json.Decoder

namespace ParseTree

/-! ## Documents -/

/-- The names of the members that mean something. -/
def fieldNames : List String := ["kind", "text", "children"]

/-- **The members that the text of a node may be written in.** -/
inductive IsTextMember : Option String → List (String × Json) → Prop where
  /-- A text that is there. -/
  | given (text : String) : IsTextMember (some text) [("text", .string text)]
  /-- A text that is not there, spelled out. -/
  | null : IsTextMember none [("text", .null)]
  /-- A text that is not there, left out. -/
  | omitted : IsTextMember none []

mutual

/-- **A document of a parse tree**: an object with a member for the kind, the
text and the children of the node, in any order and among members of other
names with any values. -/
inductive IsDocument : ParseTree → Json → Prop where
  | node {kind : String} {text : Option String} {children : List ParseTree}
    {members textMember childrenMember others : List (String × Json)}
    (text_written : IsTextMember text textMember)
    (children_written : IsChildrenMember children childrenMember)
    (others_unknown : ∀ member ∈ others, member.1 ∉ fieldNames ∧ member.2.HasDigits)
    (perm : members.Perm (("kind", .string kind) :: (textMember ++ childrenMember ++ others))) :
    IsDocument ⟨kind, text, children⟩ (.object members)

/-- **The members that the children of a node may be written in.** -/
inductive IsChildrenMember : List ParseTree → List (String × Json) → Prop where
  /-- The list of children, which may be empty. -/
  | given {children : List ParseTree} {items : List Json} (items_written : AreDocuments children items) :
    IsChildrenMember children [("children", .array items)]
  /-- An empty list of children, left out. -/
  | omitted : IsChildrenMember [] []

/-- Documents of parse trees, one for each. -/
inductive AreDocuments : List ParseTree → List Json → Prop where
  | nil : AreDocuments [] []
  | cons {tree : ParseTree} {trees : List ParseTree} {v : Json} {vs : List Json}
    (first : IsDocument tree v) (rest : AreDocuments trees vs) :
    AreDocuments (tree :: trees) (v :: vs)

end

mutual

/-- **What is written of a tree is a document of it.** -/
theorem isDocument_toJson : ∀ t : ParseTree, t.IsDocument t.toJson
  | ⟨_, none, []⟩ => .node .omitted .omitted (List.forall_mem_nil _) .rfl
  | ⟨_, some text, []⟩ => .node (.given text) .omitted (List.forall_mem_nil _) .rfl
  | ⟨_, none, child :: children⟩ =>
    .node .omitted (.given (.cons (isDocument_toJson child) (areDocuments_toJsonItems children)))
      (List.forall_mem_nil _) .rfl
  | ⟨_, some text, child :: children⟩ =>
    .node (.given text)
      (.given (.cons (isDocument_toJson child) (areDocuments_toJsonItems children)))
      (List.forall_mem_nil _) .rfl

/-- What is written of some trees are documents of them. -/
theorem areDocuments_toJsonItems : ∀ ts : List ParseTree, AreDocuments ts (toJsonItems ts)
  | [] => .nil
  | t :: ts => .cons (isDocument_toJson t) (areDocuments_toJsonItems ts)

end

/-! ## Reading documents -/

section Members

variable {key : String} {text : Option String} {children : List ParseTree}
  {textMember childrenMember : List (String × Json)}

theorem IsTextMember.valuesAt_of_ne (h : IsTextMember text textMember) (hkey : "text" ≠ key) :
    valuesAt key textMember = [] := by
  cases h with
  | omitted => rfl
  | null | given => exact valuesAt_cons_of_ne hkey _ []

theorem IsChildrenMember.valuesAt_of_ne (h : IsChildrenMember children childrenMember)
    (hkey : "children" ≠ key) : valuesAt key childrenMember = [] := by
  cases h with
  | omitted => rfl
  | given => exact valuesAt_cons_of_ne hkey _ []

/-- The text of a document is given as a text or as `null`, or is missing. -/
theorem IsTextMember.awaits (h : IsTextMember text textMember) :
    Json.Decoder.Field.Awaits (.withDefault "text" (nullable Json.Decoder.string) none) text none
      (valuesAt "text" textMember) := by
  cases h with
  | given text => exact .given (.nullable nofun (.string text))
  | null => exact .given .nullable_null
  | omitted => exact .missing rfl

theorem IsTextMember.hasDigits (h : IsTextMember text textMember) :
    ∀ member ∈ textMember, member.2.HasDigits := by
  cases h with
  | given text => exact List.forall_mem_singleton.mpr (.string text)
  | null => exact List.forall_mem_singleton.mpr .null
  | omitted => exact List.forall_mem_nil _

/-- **The members of a document are what the fields of a node await**, whatever
their order and whatever stands among them. -/
theorem awaits_members {kind : String} {decode : Json.Decoder (List ParseTree)}
    {members others : List (String × Json)}
    (htext : IsTextMember text textMember) (hchildren : IsChildrenMember children childrenMember)
    (hothers : ∀ member ∈ others, member.1 ∉ fieldNames)
    (hperm : members.Perm (("kind", .string kind) :: (textMember ++ childrenMember ++ others)))
    (h : Json.Decoder.Field.Awaits (.withDefault "children" decode []) children none
      (valuesAt "children" childrenMember)) :
    (fields decode).Awaits (kind, text, children, ()) (fields decode).empty members := by
  have hknown : (fields decode).Awaits (kind, text, children, ()) (fields decode).empty
      (("kind", .string kind) :: (textMember ++ childrenMember)) := by
    refine ⟨?_, ?_, ?_, trivial⟩
    · show Json.Decoder.Field.Awaits _ kind none (valuesAt "kind" _)
      rw [valuesAt_cons_self, valuesAt_append, htext.valuesAt_of_ne (by decide),
        hchildren.valuesAt_of_ne (by decide)]
      exact .given (.string kind)
    · show Json.Decoder.Field.Awaits _ text none (valuesAt "text" _)
      rw [valuesAt_cons_of_ne (by decide), valuesAt_append, hchildren.valuesAt_of_ne (by decide),
        List.append_nil]
      exact htext.awaits
    · show Json.Decoder.Field.Awaits _ children none (valuesAt "children" _)
      rwa [valuesAt_cons_of_ne (by decide), valuesAt_append, htext.valuesAt_of_ne (by decide),
        List.nil_append]
  -- what belongs to no field may stand in front as well as behind
  have hfront : (("kind", .string kind) :: (textMember ++ childrenMember) ++ others).Perm
      (others ++ ("kind", .string kind) :: (textMember ++ childrenMember)) :=
    List.perm_append_comm
  have hnames : ∀ member ∈ others, member.1 ∉ (fields decode).names := hothers
  exact ((Fields.awaits_append_of_not_mem hnames _).mpr hknown).perm (hperm.trans hfront)

end Members

mutual

/-- **Every document of a tree is read as the tree** wherever there is room for
it. -/
theorem IsDocument.reads : ∀ {t : ParseTree} {v : Json}, t.IsDocument v → ReadsWithin decode v t
  | _, _, @IsDocument.node kind text children members textMember childrenMember others
      htext hchildren hothers hperm => by
    refine .object fun room hroom => ?_
    have hdepth : ∀ member ∈ childrenMember, member.2.depth ≤ room := fun member hmember =>
      hroom member (hperm.mem_iff.mpr (by simp [hmember]))
    have hread : (record "ParseTree" (fields (decodeChildren room))).Reads (.object members)
        (kind, text, children, ()) :=
      .record (of_decide_eq_true rfl) (awaits_members htext hchildren
        (fun member hmember => (hothers member hmember).1) hperm (hchildren.awaits hdepth))
    exact hread.map rfl

/-- The children of a document are given as a list that is read as them, or are
missing. -/
theorem IsChildrenMember.awaits : ∀ {children : List ParseTree}
    {childrenMember : List (String × Json)}, IsChildrenMember children childrenMember →
      ∀ {room : Nat}, (∀ member ∈ childrenMember, member.2.depth ≤ room) →
        Json.Decoder.Field.Awaits (.withDefault "children" (decodeChildren room) []) children none
          (valuesAt "children" childrenMember)
  | _, _, .given h, room, hroom =>
    have hread : ReadsWithin decodeChildren _ _ := .array fun _ hitems => h.reads hitems
    .given (hread room (hroom _ List.mem_cons_self))
  | _, _, .omitted, _, _ => .missing rfl

/-- The documents of some trees are read as the trees. -/
theorem AreDocuments.reads : ∀ {trees : List ParseTree} {items : List Json},
    AreDocuments trees items → ∀ {room : Nat}, (∀ item ∈ items, item.depth ≤ room) →
      (sequence (decode room)).Reads (.array items) trees
  | _, _, .nil, _, _ => rfl
  | _, _, .cons first rest, room, h => by
    rw [List.forall_mem_cons] at h
    exact .sequence_cons (first.reads room h.1) (rest.reads h.2)

end

mutual

/-- All numerals of a document have digits. -/
theorem IsDocument.hasDigits : ∀ {t : ParseTree} {v : Json}, t.IsDocument v → v.HasDigits
  | _, _, .node htext hchildren hothers hperm => by
    refine .object fun member hmember => ?_
    have h := hperm.mem_iff.mp hmember
    simp only [List.mem_cons, List.mem_append] at h
    rcases h with rfl | (h | h) | h
    · exact .string _
    · exact htext.hasDigits member h
    · exact hchildren.hasDigits member h
    · exact (hothers member h).2

theorem IsChildrenMember.hasDigits : ∀ {children : List ParseTree}
    {childrenMember : List (String × Json)}, IsChildrenMember children childrenMember →
      ∀ member ∈ childrenMember, member.2.HasDigits
  | _, _, .given h => List.forall_mem_singleton.mpr (.array h.hasDigits)
  | _, _, .omitted => List.forall_mem_nil _

theorem AreDocuments.hasDigits : ∀ {trees : List ParseTree} {items : List Json},
    AreDocuments trees items → ∀ item ∈ items, item.HasDigits
  | _, _, .nil => List.forall_mem_nil _
  | _, _, .cons first rest => List.forall_mem_cons.mpr ⟨first.hasDigits, rest.hasDigits⟩

end

/-! ## Texts -/

/-- **Every document of a parse tree is read as the tree**, the one that is
written of it among them, if at most 127 brackets are open at once. -/
theorem ofText_document (t : ParseTree) :
    (t.toJson.depth ≤ 127 → ofText t.toJson.compact = .ok t ∧ ofText t.toJson.pretty = .ok t)
      ∧ ∀ v : Json, t.IsDocument v → v.depth ≤ 127 →
        ofText v.compact = .ok t ∧ ofText v.pretty = .ok t := by
  have hall : ∀ v : Json, t.IsDocument v → v.depth ≤ 127 →
      ofText v.compact = .ok t ∧ ofText v.pretty = .ok t := by
    intro v hv hdepth
    have hread : (decode maxDepth).Reads v t := hv.reads maxDepth hdepth
    exact hread.ofText hv.hasDigits
  exact ⟨hall t.toJson t.isDocument_toJson, hall⟩

/-- A tree in which a text that is empty stands beside one that is not there, and
a node has both a text and a child. -/
def mixedTree : ParseTree :=
  ⟨"Start", none, [⟨"VAR_NAME", some "", []⟩, ⟨"operator", some "=", [⟨"'='", none, []⟩]⟩]⟩

/-- A document of that tree, with the kind of every node behind its children and
with what does not belong there in two of its nodes. -/
def mixedDocument : Json :=
  .object [("children", .array [
      .object [("children", .array []), ("text", .string ""), ("kind", .string "VAR_NAME")],
      .object [("Text", .null),
        ("children", .array [.object [("text", .null), ("kind", .string "'='")]]),
        ("text", .string "="), ("kind", .string "operator")]]),
    ("kind", .string "Start"), ("line", .number ⟨true, 1, [5], some 3⟩),
    ("line", .array [.object [("kind", .null)]])]

theorem isDocument_mixedDocument : mixedTree.IsDocument mixedDocument := by
  have hname : IsDocument ⟨"VAR_NAME", some "", []⟩ _ :=
    .node (.given "") (.given .nil) (List.forall_mem_nil _) (List.reverse_perm _)
  have hmark : IsDocument ⟨"'='", none, []⟩ _ :=
    .node .null .omitted (List.forall_mem_nil _) (List.reverse_perm _)
  have hlabel : ∀ member ∈ [("Text", Json.null)], member.1 ∉ fieldNames ∧ member.2.HasDigits :=
    List.forall_mem_singleton.mpr ⟨by decide, .null⟩
  have hoperator : IsDocument ⟨"operator", some "=", [⟨"'='", none, []⟩]⟩ _ :=
    .node (.given "=") (.given (.cons hmark .nil)) hlabel (List.reverse_perm _)
  have hlines : ∀ member ∈ [("line", Json.number ⟨true, 1, [5], some 3⟩),
      ("line", .array [.object [("kind", .null)]])],
      member.1 ∉ fieldNames ∧ member.2.HasDigits := by
    refine List.forall_mem_cons.mpr ⟨⟨by decide, ?_⟩, List.forall_mem_singleton.mpr ⟨by decide, ?_⟩⟩
    · exact .number (List.forall_mem_singleton.mpr (by decide))
    · exact .array (List.forall_mem_singleton.mpr (.object (List.forall_mem_singleton.mpr .null)))
  exact .node .omitted (.given (.cons hname (.cons hoperator .nil))) hlines (.swap _ _ _)

/-- The tree is read from that document and from what is written of it. -/
theorem mixedTree_ofText_document :
    mixedTree.IsDocument mixedDocument ∧ mixedDocument.depth ≤ 127 ∧ mixedTree.toJson.depth ≤ 127
      ∧ (ofText mixedDocument.compact = .ok mixedTree ∧ ofText mixedDocument.pretty = .ok mixedTree)
      ∧ ofText mixedTree.toJson.compact = .ok mixedTree
      ∧ ofText mixedTree.toJson.pretty = .ok mixedTree :=
  ⟨isDocument_mixedDocument, by decide, by decide,
    (ofText_document mixedTree).2 mixedDocument isDocument_mixedDocument (by decide),
    (ofText_document mixedTree).1 (by decide)⟩

end ParseTree

end Offside
