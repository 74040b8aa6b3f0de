import Offside.Json.Decode
import Offside.Proofs.Json.Written

/-!
# Decoders over written values

What was written from a value is scanned to the draft of the value, so what a
decoder makes of a text that was written is what it makes of that draft. A
decoder **reads** a value as what it answers with on its draft
(`Decoder.Reads`), and this module says when each of the forms of decoders
reads what.

The one form with an argument in it is the record. The members of an object
come one at a time and in any order, and each fills the slot of one field or
is passed over. The invariant that carries a run over the members is what the
slots and the members still to come have in common (`Fields.Awaits`): a slot
that is filled holds the value of its field and no member of its name is to
come; a slot that is empty has one member of its name to come, or none if the
field may be missing.
-/

namespace Offside

namespace Json

/-! ## Passing over a value -/

mutual

/-- **Nothing is wrong with a value** for a reader that passes over it. -/
theorem skip_draft : ∀ v : Json, v.draft.skip = .ok ()
  | null | bool _ | number _ | string _ => rfl
  | array items => by
    rw [draft, Draft.skip, skipItems_itemDrafts items]
    rfl
  | object members => by
    rw [draft, Draft.skip, skipMembers_memberDrafts members]
    rfl

theorem skipItems_itemDrafts : ∀ items : List Json, Draft.skipItems (itemDrafts items) = .ok ()
  | [] => rfl
  | item :: items => by
    rw [itemDrafts, Draft.skipItems, skip_draft item, skipItems_itemDrafts items]
    rfl

theorem skipMembers_memberDrafts :
    ∀ members : List (String × Json), Draft.skipMembers (memberDrafts members) = .ok ()
  | [] => rfl
  | (_, value) :: members => by
    rw [memberDrafts, Draft.skipMembers, skip_draft value, skipMembers_memberDrafts members]
    rfl

end

namespace Decoder

variable {α β : Type} {decode : Decoder α} {v : Json} {a : α}

/-- **A decoder reads a value** as what it answers with on its draft. -/
def Reads (decode : Decoder α) (v : Json) (a : α) : Prop := decode v.draft = .ok a

namespace Reads

theorem map {f : α → β} {b : β} (h : decode.Reads v a) (hb : f a = b) :
    (decode.map f).Reads v b := by
  rw [Reads, Decoder.map, show decode v.draft = .ok a from h, ← hb]
  rfl

/-- An answer that was changed is that of the decoder before the change. -/
theorem exists_of_map {f : α → β} {b : β} (h : (decode.map f).Reads v b) :
    ∃ a, decode.Reads v a ∧ f a = b := by
  rw [Reads, Decoder.map] at h
  cases hd : decode v.draft with
  | error e =>
    rw [hd] at h
    exact absurd h nofun
  | ok a =>
    rw [hd] at h
    exact ⟨a, hd, Except.ok.inj h⟩

theorem string (s : String) : Decoder.string.Reads (.string s) s := rfl

/-- `null` is read as nothing. -/
theorem nullable_null : (nullable decode).Reads .null none := rfl

/-- Any other value is read as something. -/
theorem nullable (hv : v ≠ .null) (h : decode.Reads v a) :
    (nullable decode).Reads v (some a) := by
  have hok : decode v.draft = .ok a := h
  cases v with
  | null => exact absurd rfl hv
  | bool _ | number _ | string _ | array _ | object _ =>
    simp only [Reads, Decoder.nullable, draft] at hok ⊢
    rw [hok]
    rfl

/-! ## Sequences and variants -/

/-- One more item in front. -/
theorem sequence_cons {first : α} {as : List α} {items : List Json} (hfirst : decode.Reads v first)
    (hrest : (sequence decode).Reads (.array items) as) :
    (sequence decode).Reads (.array (v :: items)) (first :: as) := by
  have hok : decode v.draft = .ok first := hfirst
  rw [Reads, draft, Decoder.sequence] at hrest ⊢
  rw [itemDrafts, Decoder.items, hok]
  cases hitems : Decoder.items decode (itemDrafts items) with
  | error e =>
    rw [hitems] at hrest
    exact absurd hrest nofun
  | ok rest =>
    rw [hitems] at hrest
    exact congrArg (fun as => Except.ok (first :: as)) (Except.ok.inj hrest)

/-- **A sequence** reads an array whose items are read one by one. -/
theorem sequence {as : List α} {write : α → Json} (h : ∀ a ∈ as, decode.Reads (write a) a) :
    (sequence decode).Reads (.array (as.map write)) as := by
  induction as with
  | nil => rfl
  | cons a as ih =>
    rw [List.forall_mem_cons] at h
    exact sequence_cons h.1 (ih h.2)

/-- **A variant** reads an object whose one key is the tag of its content. -/
theorem variant {cases : List (Case α)} {tag : String} (htag : cases.lookup tag = some decode)
    (h : decode.Reads v a) : (variant cases).Reads (.tagged tag v) a := by
  have hcontent : content cases tag = .ok decode := by rw [content, htag]
  have hok : decode v.draft = .ok a := h
  show (content cases tag >>= fun decode => decode v.draft >>= fun a =>
    variantEnd [] .closed >>= fun _ => pure a) = .ok a
  rw [hcontent]
  show (decode v.draft >>= fun a => variantEnd [] .closed >>= fun _ => pure a) = .ok a
  rw [hok]
  rfl

end Reads

/-! ## Records -/

/-- The values that an object has for a key. -/
def valuesAt (key : String) : List (String × Json) → List Json
  | [] => []
  | (other, v) :: members =>
    if other = key then v :: valuesAt key members else valuesAt key members

theorem valuesAt_cons_self (key : String) (v : Json) (members : List (String × Json)) :
    valuesAt key ((key, v) :: members) = v :: valuesAt key members := if_pos rfl

theorem valuesAt_cons_of_ne {key other : String} (h : other ≠ key) (v : Json)
    (members : List (String × Json)) :
    valuesAt key ((other, v) :: members) = valuesAt key members := if_neg h

theorem valuesAt_eq_map_filter (key : String) (members : List (String × Json)) :
    valuesAt key members = (members.filter (·.1 = key)).map Prod.snd := by
  induction members with
  | nil => rfl
  | cons member members ih =>
    obtain ⟨other, v⟩ := member
    by_cases h : other = key
    · rw [h, valuesAt_cons_self, ih, List.filter_cons_of_pos (by simp), List.map_cons]
    · rw [valuesAt_cons_of_ne h, ih, List.filter_cons_of_neg (by simpa using h)]

theorem valuesAt_append (key : String) (members others : List (String × Json)) :
    valuesAt key (members ++ others) = valuesAt key members ++ valuesAt key others := by
  simp only [valuesAt_eq_map_filter, List.filter_append, List.map_append]

/-- Members in another order have the same values for a key. -/
theorem valuesAt_perm {members others : List (String × Json)} (h : members.Perm others)
    (key : String) : (valuesAt key members).Perm (valuesAt key others) := by
  rw [valuesAt_eq_map_filter, valuesAt_eq_map_filter]
  exact (h.filter _).map _

/-- **What a slot and the values still to come for its field have in common**:
together they hold the value of the field once, or the field is missing. -/
inductive Field.Awaits (f : Field α) (a : α) : Option α → List Json → Prop where
  /-- The value has come. -/
  | filled : f.Awaits a (some a) []
  /-- The value is still to come. -/
  | given {v : Json} (h : f.decode.Reads v a) : f.Awaits a none [v]
  /-- The value will not come and need not. -/
  | missing (h : f.missing = some a) : f.Awaits a none []

/-- There is one value to come at most, so that their order does not matter. -/
theorem Field.Awaits.perm {f : Field α} {slot : Option α} {vs ws : List Json}
    (h : f.Awaits a slot vs) (hp : ws.Perm vs) : f.Awaits a slot ws := by
  cases h with
  | filled => exact hp.eq_nil ▸ .filled
  | given h => exact List.perm_singleton.mp hp ▸ .given h
  | missing h => exact hp.eq_nil ▸ .missing h

namespace Fields

variable {αs : List Type}

/-- The names of the fields. -/
def names : {αs : List Type} → Fields αs → List String
  | _, nil => []
  | _, cons f rest => f.name :: rest.names

/-- **The slots and the members still to come** hold these values. -/
def Awaits : {αs : List Type} → Fields αs → Values αs → Slots αs → List (String × Json) → Prop
  | _, nil, _, _, _ => True
  | _, cons f rest, (a, as), (slot, slots), members =>
    f.Awaits a slot (valuesAt f.name members) ∧ rest.Awaits as slots members

/-- A member that belongs to no field makes no difference. -/
theorem awaits_cons_of_not_mem {fields : Fields αs} {as : Values αs} {slots : Slots αs}
    {key : String} (hkey : key ∉ fields.names) (v : Json) (members : List (String × Json)) :
    fields.Awaits as slots ((key, v) :: members) ↔ fields.Awaits as slots members := by
  induction fields with
  | nil => exact Iff.rfl
  | cons f rest ih =>
    obtain ⟨a, as⟩ := as
    obtain ⟨slot, slots⟩ := slots
    rw [names, List.mem_cons, not_or] at hkey
    simp only [Awaits, valuesAt_cons_of_ne hkey.1, ih hkey.2]

/-- Members that belong to no field make no difference. -/
theorem awaits_append_of_not_mem {fields : Fields αs} {as : Values αs} {slots : Slots αs}
    {others : List (String × Json)} (h : ∀ member ∈ others, member.1 ∉ fields.names)
    (members : List (String × Json)) :
    fields.Awaits as slots (others ++ members) ↔ fields.Awaits as slots members := by
  induction others with
  | nil => exact Iff.rfl
  | cons other others ih =>
    rw [List.forall_mem_cons] at h
    exact (awaits_cons_of_not_mem h.1 other.2 _).trans (ih h.2)

/-- **The order of the members makes no difference.** -/
theorem Awaits.perm {fields : Fields αs} {as : Values αs} {slots : Slots αs}
    {members others : List (String × Json)} (h : fields.Awaits as slots members)
    (hp : others.Perm members) : fields.Awaits as slots others := by
  induction fields with
  | nil => trivial
  | cons f rest ih =>
    exact ⟨h.1.perm (valuesAt_perm hp f.name), ih h.2⟩

/-- **One member** is put where it belongs, and the invariant is kept. -/
theorem Awaits.put {fields : Fields αs} {as : Values αs} {slots : Slots αs} {key : String}
    {v : Json} {members : List (String × Json)} (hnodup : fields.names.Nodup)
    (h : fields.Awaits as slots ((key, v) :: members)) :
    ∃ put?, fields.put slots key v.draft = .ok put?
      ∧ fields.Awaits as (put?.getD slots) members := by
  induction fields with
  | nil => exact ⟨none, rfl, trivial⟩
  | cons f rest ih =>
    obtain ⟨a, as⟩ := as
    obtain ⟨slot, slots⟩ := slots
    obtain ⟨hf, hrest⟩ := h
    rw [names, List.nodup_cons] at hnodup
    by_cases hkey : key = f.name
    · -- the member belongs to this field, whose slot has to be empty
      subst hkey
      rw [valuesAt_cons_self] at hf
      generalize hto : valuesAt f.name members = others at hf
      cases hf with
      | given hread =>
        refine ⟨some (some a, slots), ?_, ?_⟩
        · unfold Fields.put
          rw [if_pos rfl, show f.decode v.draft = .ok a from hread]
          rfl
        · refine ⟨?_, (awaits_cons_of_not_mem hnodup.1 v members).mp hrest⟩
          rw [hto]
          exact .filled
    · -- it belongs to a later field, or to none
      rw [valuesAt_cons_of_ne hkey] at hf
      obtain ⟨put?, hput, hawaits⟩ := ih hnodup.2 hrest
      refine ⟨put?.map fun slots => (slot, slots), ?_, ?_⟩
      · unfold Fields.put
        rw [if_neg hkey, hput]
        rfl
      · cases put? with
        | none => exact ⟨hf, hawaits⟩
        | some slots' => exact ⟨hf, hawaits⟩

/-- **All members** are put where they belong or passed over. -/
theorem Awaits.putAll {fields : Fields αs} {as : Values αs} {slots : Slots αs}
    {members : List (String × Json)} (hnodup : fields.names.Nodup)
    (h : fields.Awaits as slots members) :
    ∃ slots', fields.putAll slots (memberDrafts members) = .ok slots'
      ∧ fields.Awaits as slots' [] := by
  induction members generalizing slots with
  | nil => exact ⟨slots, rfl, h⟩
  | cons member members ih =>
    obtain ⟨key, v⟩ := member
    obtain ⟨put?, hput, hawaits⟩ := h.put hnodup
    obtain ⟨slots', hslots', hdone⟩ := ih hawaits
    refine ⟨slots', ?_, hdone⟩
    rw [memberDrafts, Fields.putAll]
    show (fields.put slots key v.draft >>= _) = _
    rw [hput]
    cases put? with
    | some slots => exact hslots'
    | none =>
      show (v.draft.skip >>= _) = _
      rw [skip_draft]
      exact hslots'

/-- Once no member is to come, **the slots hold the values**. -/
theorem Awaits.complete {fields : Fields αs} {as : Values αs} {slots : Slots αs}
    (h : fields.Awaits as slots []) : fields.complete slots = .ok as := by
  induction fields with
  | nil => rfl
  | cons f rest ih =>
    obtain ⟨a, as⟩ := as
    obtain ⟨slot, slots⟩ := slots
    obtain ⟨hf, hrest⟩ := h
    have hslot : slot.or f.missing = some a := by
      rw [valuesAt] at hf
      cases hf with
      | filled => rfl
      | missing hmissing => exact hmissing
    rw [Fields.complete, hslot, ih hrest]
    rfl

/-- **The members of a record in the order of its fields.** -/
def Lists : {αs : List Type} → Fields αs → Values αs → List (String × Json) → Prop
  | _, nil, _, [] => True
  | _, cons f rest, (a, as), (key, v) :: members =>
    key = f.name ∧ f.decode.Reads v a ∧ rest.Lists as members
  | _, _, _, _ => False

/-- A key that is no name has no value among the members of a record. -/
theorem Lists.valuesAt_eq_nil {fields : Fields αs} {as : Values αs}
    {members : List (String × Json)} (h : fields.Lists as members) {key : String}
    (hkey : key ∉ fields.names) : valuesAt key members = [] := by
  induction fields generalizing members with
  | nil =>
    cases members with
    | nil => rfl
    | cons member members => exact h.elim
  | cons f rest ih =>
    obtain ⟨a, as⟩ := as
    cases members with
    | nil => exact h.elim
    | cons member members =>
      obtain ⟨other, v⟩ := member
      obtain ⟨hname, _, hrest⟩ := h
      rw [names, List.mem_cons, not_or] at hkey
      rw [valuesAt_cons_of_ne (by rw [hname]; exact Ne.symm hkey.1), ih hrest hkey.2]

/-- Members in the order of the fields are what empty slots await. -/
theorem Lists.awaits {fields : Fields αs} {as : Values αs} {members : List (String × Json)}
    (hnodup : fields.names.Nodup) (h : fields.Lists as members) :
    fields.Awaits as fields.empty members := by
  induction fields generalizing members with
  | nil => trivial
  | cons f rest ih =>
    obtain ⟨a, as⟩ := as
    cases members with
    | nil => exact h.elim
    | cons member members =>
      obtain ⟨key, v⟩ := member
      obtain ⟨rfl, hread, hrest⟩ := h
      rw [names, List.nodup_cons] at hnodup
      refine ⟨?_, (awaits_cons_of_not_mem hnodup.1 v members).mpr (ih hnodup.2 hrest)⟩
      rw [valuesAt_cons_self, hrest.valuesAt_eq_nil hnodup.1]
      exact .given hread

end Fields

/-- **A record** reads an object that has, in any order and among others, a
member for every field that may not be missing. -/
theorem Reads.record {αs : List Type} {name : String} {fields : Fields αs} {as : Values αs}
    {members : List (String × Json)} (hnodup : fields.names.Nodup)
    (h : fields.Awaits as fields.empty members) :
    (record name fields).Reads (.object members) as := by
  obtain ⟨slots, hslots, hdone⟩ := h.putAll hnodup
  rw [Reads, draft, Decoder.record, hslots]
  exact hdone.complete

/-- **A record** reads an object that has its fields as members, in order. -/
theorem Reads.record_of_lists {αs : List Type} {name : String} {fields : Fields αs}
    {members : List (String × Json)} (as : Values αs) (hnodup : fields.names.Nodup)
    (h : fields.Lists as members) : (Decoder.record name fields).Reads (.object members) as :=
  .record hnodup (h.awaits hnodup)

/-! ## Room

Decoders that may nest are given how many more brackets may be opened. The
depth of a value is the room it takes, and what stands in a bracket has less
by one. -/

/-- An item is no deeper than the deepest. -/
theorem depth_le_itemsDepth {item : Json} {items : List Json} (h : item ∈ items) :
    item.depth ≤ itemsDepth items := by
  induction items with
  | nil => exact absurd h List.not_mem_nil
  | cons first items ih =>
    rw [itemsDepth]
    rcases List.mem_cons.mp h with rfl | h
    · exact Nat.le_max_left _ _
    · exact Nat.le_trans (ih h) (Nat.le_max_right _ _)

/-- A member is no deeper than the deepest. -/
theorem depth_le_membersDepth {member : String × Json} {members : List (String × Json)}
    (h : member ∈ members) : member.2.depth ≤ membersDepth members := by
  induction members with
  | nil => exact absurd h List.not_mem_nil
  | cons first members ih =>
    rw [membersDepth]
    rcases List.mem_cons.mp h with rfl | h
    · exact Nat.le_max_left _ _
    · exact Nat.le_trans (ih h) (Nat.le_max_right _ _)

/-- **A value is read wherever there is room** for its brackets. -/
def ReadsWithin (decode : Nat → Decoder α) (v : Json) (a : α) : Prop :=
  ∀ room, v.depth ≤ room → (decode room).Reads v a

namespace ReadsWithin

variable {decode : Nat → Decoder α}

theorem map {f : α → β} {b : β} (h : ReadsWithin decode v a) (hb : f a = b) :
    ReadsWithin (fun room => Decoder.map f (decode room)) v b :=
  fun room hroom => .map (h room hroom) hb

/-- The items of an array have less room by one. -/
theorem array {items : List Json}
    (h : ∀ room, (∀ item ∈ items, item.depth ≤ room) →
      (decode (room + 1)).Reads (.array items) a) :
    ReadsWithin decode (.array items) a := by
  intro room hroom
  rw [Json.depth] at hroom
  obtain ⟨room, rfl⟩ : ∃ less, room = less + 1 := ⟨room - 1, by omega⟩
  exact h room fun item hitem => Nat.le_trans (depth_le_itemsDepth hitem) (by omega)

/-- The members of an object have less room by one. -/
theorem object {members : List (String × Json)}
    (h : ∀ room, (∀ member ∈ members, member.2.depth ≤ room) →
      (decode (room + 1)).Reads (.object members) a) :
    ReadsWithin decode (.object members) a := by
  intro room hroom
  rw [Json.depth] at hroom
  obtain ⟨room, rfl⟩ : ∃ less, room = less + 1 := ⟨room - 1, by omega⟩
  exact h room fun member hmember => Nat.le_trans (depth_le_membersDepth hmember) (by omega)

/-- The content of a variant has less room by one. -/
theorem variant {cases : Nat → List (Case α)} {content : Nat → Decoder α} {tag : String}
    (hdecode : ∀ room d, decode (room + 1) d = Decoder.variant (cases room) d)
    (htag : ∀ room, (cases room).lookup tag = some (content room))
    (h : ReadsWithin content v a) : ReadsWithin decode (.tagged tag v) a := by
  refine object fun room hmembers => ?_
  have hread := Reads.variant (htag room) (h room (hmembers (tag, v) List.mem_cons_self))
  exact (hdecode room _).trans hread

/-- A variant where `null` could be. -/
theorem nullable {tag : String} {absent : α} (h : ReadsWithin decode (.tagged tag v) a) :
    ReadsWithin (fun room => Decoder.map (·.getD absent) (Decoder.nullable (decode room)))
      (.tagged tag v) a :=
  fun room hroom => .map (.nullable nofun (h room hroom)) rfl

end ReadsWithin

/-! ## Whole texts -/

/-- **A text written from a value** holds what the decoder reads the value as,
in either form. -/
theorem Reads.ofText (hv : v.HasDigits) (h : decode.Reads v a) :
    Decoder.ofText decode v.compact = .ok a ∧ Decoder.ofText decode v.pretty = .ok a := by
  have hok : decode v.draft = .ok a := h
  constructor
  · rw [Decoder.ofText, outcome_compact hv]
    show (decode v.draft >>= _) = _
    rw [hok]
    rfl
  · rw [Decoder.ofText, outcome_pretty hv]
    show (decode v.draft >>= _) = _
    rw [hok]
    rfl

end Decoder

end Json

end Offside
