import Offside.Json.Scan

/-!
# Decoding drafts

A decoder looks at a draft as a value of some form and answers with what it
stands for, or with its first objection. Three forms are made of others:

* a **sequence** is an array with items of one form;
* a **record** has named fields. It is written as an object, whose members
  may come in any order and among others that mean nothing, or as an array
  of its fields in their order;
* a **variant** is an object with one member, whose key says of which form
  the value is.

Fields are described by a list with one entry per field, and a record is
decoded into one slot per field. A field that an object leaves out, or that
comes after the end of an array, may have a value for that case; the two cases
are told apart, since a field may be optional in one of them only.

Whoever opens a bracket has to have room for it. Decoders that may nest are
given how many more brackets may be opened; one that has no room left is
`crowded`.
-/

namespace Offside

namespace Json

/-- **A decoder.** -/
abbrev Decoder (α : Type) := Draft → Except Error α

namespace Decoder

variable {α β : Type}

/-- A decoder whose answers are changed. -/
def map (f : α → β) (decode : Decoder α) : Decoder β := fun d => f <$> decode d

/-- **No room for a bracket**: a value is refused if it starts with a bracket
that the decoder would open. -/
def crowded (opens : Draft → Bool) (decode : Decoder α) : Decoder α := fun d =>
  if opens d then .error .recursionLimit else decode d

/-- A decoder for what stands in a bracket there is no room for. -/
def refused : Decoder α := fun _ => .error .recursionLimit

/-- **A text.** -/
def string : Decoder String
  | .string s => s
  | d => .error (d.mismatch "a string")

/-- **A value or `null`.** A word that starts like `null` has to be it. -/
def nullable (decode : Decoder α) : Decoder (Option α)
  | .null => .ok none
  | .broken (.word true atEnd) => .error (Break.word true atEnd).readError
  | d => some <$> decode d

/-! ## Sequences -/

/-- The error for a reader that wants one more item, or the end. -/
def itemsEnd : Ending → Except Error Unit
  | .closed | .cut => .ok ()
  | .eof | .eofAfterComma => .error (.eof .list)
  | .trailingComma => .error .trailingComma
  | .noComma | .noKey | .badKey _ _ => .error .expectedListCommaOrEnd

/-- Items one after the other. -/
def items (decode : Decoder α) : List Draft → Except Error (List α)
  | [] => .ok []
  | d :: ds => do
    let a ← decode d
    return a :: (← items decode ds)

/-- **An array with items of one form.** -/
def sequence (decode : Decoder α) : Decoder (List α)
  | .array ds ending => do
    let as ← items decode ds
    itemsEnd ending
    return as
  | d => .error (d.mismatch "a sequence")

/-! ## Records -/

/-- **A field of a record.** -/
structure Field (α : Type) where
  /-- Its name. -/
  name : String
  /-- What its value looks like. -/
  decode : Decoder α
  /-- Its value if an object leaves it out, if it may. -/
  missing : Option α
  /-- Its value if an array ends before it, if it may. -/
  beyond : Option α

/-- A field that has to be there. -/
def Field.required (name : String) (decode : Decoder α) : Field α := ⟨name, decode, none, none⟩

/-- A field that may be left out. -/
def Field.withDefault (name : String) (decode : Decoder α) (a : α) : Field α :=
  ⟨name, decode, some a, some a⟩

/-- A field that may be `null`, or left out of an object. -/
def Field.nullable (name : String) (decode : Decoder (Option α)) : Field (Option α) :=
  ⟨name, decode, some none, none⟩

/-- **The fields of a record**, in order, by the types of their values. -/
inductive Fields : List Type → Type 1 where
  | nil : Fields []
  | cons {α : Type} {αs : List Type} (f : Field α) (rest : Fields αs) : Fields (α :: αs)

/-- Values of these types. -/
abbrev Values : List Type → Type
  | [] => Unit
  | α :: αs => α × Values αs

/-- Values of these types, each of which may be missing. -/
abbrev Slots : List Type → Type
  | [] => Unit
  | α :: αs => Option α × Slots αs

namespace Fields

/-- How many fields there are. -/
def size : {αs : List Type} → Fields αs → Nat
  | _, nil => 0
  | _, cons _ rest => rest.size + 1

/-- No field has a value yet. -/
def empty : {αs : List Type} → Fields αs → Slots αs
  | _, nil => ()
  | _, cons _ rest => (none, rest.empty)

/-- **One member of an object**: the slots with its value in the slot of its
key, or nothing if no field has that name. -/
def put : {αs : List Type} → Fields αs → Slots αs → String → Draft →
    Except Error (Option (Slots αs))
  | _, nil, _, _, _ => .ok none
  | _, cons f rest, (slot, slots), key, value =>
    if key = f.name then
      match slot with
      | some _ => .error (.duplicateField f.name)
      | none => (fun a => some (some a, slots)) <$> f.decode value
    else (·.map fun slots => (slot, slots)) <$> rest.put slots key value

/-- **The members of an object**, from left to right. What belongs to no field
is passed over. -/
def putAll {αs : List Type} (fields : Fields αs) :
    Slots αs → List Member → Except Error (Slots αs)
  | slots, [] => .ok slots
  | slots, (key, value) :: members => do
    let key ← key
    match ← fields.put slots key value with
    | some slots => fields.putAll slots members
    | none => do
      value.skip
      fields.putAll slots members

/-- **All values**, those of missing fields too if they may be missing. -/
def complete : {αs : List Type} → Fields αs → Slots αs → Except Error (Values αs)
  | _, nil, _ => .ok ()
  | _, cons f rest, (slot, slots) =>
    match slot.or f.missing with
    | some a => (fun as => (a, as)) <$> rest.complete slots
    | none => .error (.missingField f.name)

/-- The error for a reader that has had the last field of an array. -/
def arrayEnd : List Draft → Ending → Except Error Unit
  | _ :: _, _ => .error .trailingCharacters
  | [], .closed => .ok ()
  | [], .trailingComma => .error .trailingComma
  | [], .eof => .error (.eof .list)
  | [], _ => .error .trailingCharacters

/-- **The items of an array**, as the fields from number `index` on. -/
def take (expected : String) : {αs : List Type} → Fields αs → Nat → List Draft → Ending →
    Except Error (Values αs)
  | _, nil, _, ds, ending => arrayEnd ds ending
  | _, cons f rest, index, d :: ds, ending => do
    let a ← f.decode d
    return (a, ← rest.take expected (index + 1) ds ending)
  | _, cons f rest, index, [], ending => do
    itemsEnd ending
    match f.beyond with
    | some a => return (a, ← rest.take expected (index + 1) [] ending)
    | none => .error (.invalidLength index expected)

end Fields

/-- The error for a reader that wants one more member, or the end. -/
def membersEnd : Ending → Except Error Unit
  | .closed | .cut => .ok ()
  | .eof => .error (.eof .object)
  | .eofAfterComma => .error (.eof .value)
  | .trailingComma => .error .trailingComma
  | .noComma => .error .expectedObjectCommaOrEnd
  | .noKey => .error .keyMustBeString
  | .badKey read _ => .error read

/-- What is said of the length of a record. -/
private def recordLength (name : String) (size : Nat) : String :=
  "struct " ++ name ++ " with " ++ toString size ++ (if size = 1 then " element" else " elements")

/-- **A record.** -/
def record {αs : List Type} (name : String) (fields : Fields αs) : Decoder (Values αs)
  | .object members ending => do
    let slots ← fields.putAll fields.empty members
    membersEnd ending
    fields.complete slots
  | .array ds ending => fields.take (recordLength name fields.size) 0 ds ending
  | d => .error (d.mismatch ("struct " ++ name))

/-! ## Variants -/

/-- A form that a variant may have: its tag and its content. -/
abbrev Case (α : Type) := String × Decoder α

/-- The content that belongs to a tag. -/
def content (cases : List (Case α)) (tag : String) : Except Error (Decoder α) :=
  match cases.lookup tag with
  | some decode => .ok decode
  | none => .error (.unknownVariant tag (cases.map Prod.fst))

/-- The error for a reader that wants a tag. -/
def tagEnd : Ending → Error
  | .noKey => .keyMustBeString
  | .badKey read _ => read
  | .eof | .eofAfterComma => .eof .object
  | .closed | .trailingComma | .noComma | .cut => .expectedValue

/-- The error for a reader that has had the one member of a variant. -/
def variantEnd : List Member → Ending → Except Error Unit
  | [], .closed | [], .cut => .ok ()
  | [], .eof => .error (.eof .object)
  | _, _ => .error .expectedValue

/-- **A variant.** -/
def variant (cases : List (Case α)) : Decoder α
  | .object ((tag, value) :: members) ending => do
    let decode ← content cases (← tag)
    let a ← decode value
    variantEnd members ending
    return a
  | .object [] ending => .error (tagEnd ending)
  | .string tag => do
    let _ ← content cases (← tag)
    .error (.invalidType "unit variant" "newtype variant")
  | .broken .eof => .error (.eof .value)
  | .broken .noColon => .error .expectedColon
  | .broken .eofColon => .error (.eof .object)
  | .broken (.string read _) => .error read
  | _ => .error .expectedValue

/-! ## Texts -/

/-- **How many brackets may be open** at once in a text. -/
def maxDepth : Nat := 127

/-- **A whole text.** After the value only space may follow. -/
def ofText (decode : Decoder α) (text : String) : Except Error α := do
  let outcome := Outcome.ofText text
  let a ← decode outcome.draft
  if outcome.trailing then .error .trailingCharacters
  return a

end Decoder

end Json

end Offside
