import Offside.Proofs.Json.Numerals

/-!
# Written values are scanned back

A scan makes a draft of a text, and of a text that was written from a value
it makes the draft that is the value again (`Json.draft`). This holds of the
compact form and of the pretty form, and the argument does not look at which
it is: the two differ only in the space between the parts of a value, and a
scan passes over space wherever parts meet.

A text **spells** a draft if the scan of it delivers the draft wherever a
value may start, whatever brackets are open around it. Numerals need some care:
they end only where something else begins, so all that can be asked is that
the scan goes on as if the value had been delivered (`Scan.HasRead`), and
that only over what may follow a value.
-/

namespace Offside

namespace Json

/-! ## Drafts of values -/

mutual

/-- **The draft of a value**: the value, and nothing broken off. -/
def draft : Json → Draft
  | null => .null
  | bool b => .bool b
  | number n => .number n
  | string s => .string (.ok s)
  | array items => .array (itemDrafts items) .closed
  | object members => .object (memberDrafts members) .closed

/-- The drafts of the items of an array. -/
def itemDrafts : List Json → List Draft
  | [] => []
  | item :: items => item.draft :: itemDrafts items

/-- The drafts of the members of an object. -/
def memberDrafts : List (String × Json) → List Member
  | [] => []
  | (key, value) :: members => (.ok key, value.draft) :: memberDrafts members

end

/-- **All digits of a value are digits**: it holds only numerals that can be
written. -/
inductive HasDigits : Json → Prop where
  | null : HasDigits null
  | bool (b : Bool) : HasDigits (bool b)
  | number {n : Numeral} (h : n.HasDigits) : HasDigits (number n)
  | string (s : String) : HasDigits (string s)
  | array {items : List Json} (h : ∀ item ∈ items, HasDigits item) : HasDigits (array items)
  | object {members : List (String × Json)} (h : ∀ member ∈ members, HasDigits member.2) :
    HasDigits (object members)

namespace Scan

variable {s : Scan} {d : Draft} {frames : List Frame} {text gap gap' space : List Char}

/-! ## Scans that have read a value -/

/-- What may follow a value. -/
def isDelimiter (c : Char) : Bool := isBlank c || c == ',' || c == ']' || c == '\x7d'

/-- **A scan has read a value**: it goes on over what may follow, and it ends,
as if the value had been delivered. -/
structure HasRead (s : Scan) (d : Draft) (frames : List Frame) : Prop where
  /-- It goes on so. -/
  step_eq : ∀ c, isDelimiter c = true → s.step c = (deliver d frames).step c
  /-- It ends so. -/
  finish_eq : s.finish = (deliver d frames).finish

namespace HasRead

/-- A value that was delivered has been read. -/
theorem deliver (d : Draft) (frames : List Frame) : HasRead (deliver d frames) d frames :=
  ⟨fun _ _ => rfl, rfl⟩

/-- What was delivered is looked at like any other scan that stands after a
value. -/
theorem step_deliver (d : Draft) (frames : List Frame) (c : Char) :
    (Scan.deliver d frames).step c = afterValueStep (Scan.deliver d frames) c := by
  cases frames with
  | nil => rfl
  | cons frame frames => cases frame <;> rfl

theorem finish_deliver (d : Draft) (frames : List Frame) :
    (Scan.deliver d frames).finish = finishAfterValue (Scan.deliver d frames) := by
  cases frames with
  | nil => rfl
  | cons frame frames => cases frame <;> rfl

/-- No delimiter can belong to a numeral. -/
theorem not_numeral {c : Char} (h : isDelimiter c = true) :
    digitValue? c = none ∧ c ≠ '.' ∧ c ≠ 'e' ∧ c ≠ 'E' := by
  simp only [isDelimiter, isBlank, Bool.or_eq_true, beq_iff_eq] at h
  rcases h with (((((rfl | rfl) | rfl) | rfl) | rfl) | rfl) | rfl <;> decide

/-- A numeral that is complete has been read. -/
theorem number {scan : NumberScan} (h : scan.isComplete = true) (frames : List Frame) :
    HasRead (number scan frames) (.number scan.numeral) frames where
  step_eq c hc := by
    obtain ⟨hdigit, hpoint, he, hE⟩ := not_numeral hc
    have hdone : scan.step c = .done scan.numeral := by
      rw [NumberScan.step, hdigit]
      cases hphase : scan.phase with
      | zero | whole | fraction | exponentDigit =>
        simp [NumberScan.otherStep, hphase, hpoint, he, hE]
      | minus | point | exponent | exponentSign => simp [NumberScan.isComplete, hphase] at h
    rw [step_deliver, step, hdone]
  finish_eq := by
    rw [finish_deliver, finish, if_pos h]

/-- **What follows a value** finds it delivered. -/
theorem run_cons (h : HasRead s d frames) {c : Char} (hc : isDelimiter c = true)
    (rest : List Char) : s.run (c :: rest) = (Scan.deliver d frames).run (c :: rest) := by
  rw [Scan.run_cons, Scan.run_cons, h.step_eq c hc]

end HasRead

/-! ## Space -/

/-- A text of space only. -/
def IsSpace (text : List Char) : Prop := ∀ c ∈ text, isBlank c = true

/-- A scan that space does not change, over any amount of it. -/
theorem run_of_isSpace (hs : ∀ c, isBlank c = true → s.step c = s) (h : IsSpace text) :
    s.run text = s := by
  induction text with
  | nil => rfl
  | cons c text ih =>
    rw [run_cons, hs c (h c List.mem_cons_self)]
    exact ih fun c' hc' => h c' (List.mem_cons_of_mem _ hc')

/-- Space before a value. -/
theorem run_value_append (h : IsSpace gap) (place : Place) (frames : List Frame)
    (rest : List Char) :
    (value place frames).run (gap ++ rest) = (value place frames).run rest := by
  have hs : ∀ c, isBlank c = true → (value place frames).step c = value place frames := by
    intro c hc
    rw [step]
    unfold valueStep
    exact if_pos hc
  rw [run_append, run_of_isSpace hs h]

/-- Space before a key. -/
theorem run_someKey_append (h : IsSpace gap) (first : Bool) (before : List Member)
    (frames : List Frame) (rest : List Char) :
    (someKey first before frames).run (gap ++ rest) = (someKey first before frames).run rest := by
  rw [run_append, run_of_isSpace (fun c hc => by rw [step, keyStep, if_pos hc]) h]

/-- Space after an item. -/
theorem run_afterItem_append (h : IsSpace gap) (items : List Draft) (frames : List Frame)
    (rest : List Char) :
    (afterItem items frames).run (gap ++ rest) = (afterItem items frames).run rest := by
  rw [run_append, run_of_isSpace
    (fun c hc => by rw [step, afterValueStep, afterItemStep, if_pos hc]) h]

/-- Space after a member. -/
theorem run_afterMember_append (h : IsSpace gap) (members : List Member) (frames : List Frame)
    (rest : List Char) :
    (afterMember members frames).run (gap ++ rest) = (afterMember members frames).run rest := by
  rw [run_append, run_of_isSpace
    (fun c hc => by rw [step, afterValueStep, afterMemberStep, if_pos hc]) h]

end Scan

open Scan

/-! ## Spelling -/

/-- **A text spells a draft**: wherever a value may start, the scan of the
text has read the draft. -/
def Spells (text : List Char) (d : Draft) : Prop :=
  ∀ (place : Place) (frames : List Frame), HasRead ((value place frames).run text) d frames

namespace Spells

variable {write : Json → List Char} {gap gap' space : List Char}

theorem null : Spells "null".toList Json.null.draft := fun _ frames => .deliver .null frames

theorem ofTrue : Spells "true".toList (Json.bool true).draft :=
  fun _ frames => .deliver (.bool true) frames

theorem ofFalse : Spells "false".toList (Json.bool false).draft :=
  fun _ frames => .deliver (.bool false) frames

theorem string (s : String) : Spells (quote s).toList (Json.string s).draft := by
  intro place frames
  rw [run_quote]
  exact .deliver _ frames

theorem number {n : Numeral} (h : n.HasDigits) : Spells n.text.toList (Json.number n).draft := by
  intro place frames
  obtain ⟨s, hs, hn, hcomplete⟩ := exists_run_numeral place frames h
  rw [hs, show (Json.number n).draft = .number s.numeral by rw [hn]; rfl]
  exact .number hcomplete frames

/-- What stands behind a value in brackets starts with what may follow it: a
comma, space or the closing bracket. -/
theorem exists_delimiter {α : Type} (write : α → List Char) (items : List α)
    (hgap : IsSpace gap) {closing : Char} (hclosing : isDelimiter closing = true) :
    ∃ c rest, (items.flatMap fun item => ',' :: write item) ++ (gap ++ [closing]) = c :: rest
      ∧ isDelimiter c = true := by
  cases items with
  | cons item items => exact ⟨',', _, rfl, rfl⟩
  | nil =>
    cases gap with
    | nil => exact ⟨closing, _, rfl, hclosing⟩
    | cons c gap =>
      refine ⟨c, gap ++ [closing], rfl, ?_⟩
      rw [isDelimiter, hgap c List.mem_cons_self]
      rfl

/-! ### Arrays -/

/-- The items after the first, each with a comma and some space before it. -/
def restItems (write : Json → List Char) (gap : List Char) (items : List Json) : List Char :=
  items.flatMap fun item => ',' :: (gap ++ write item)

/-- **One item**, where the value of an array may start. -/
theorem run_item {item : Json} {text : List Char} (h : Spells text item.draft)
    (hgap : IsSpace gap') (place : Place) (before : List Draft) (frames : List Frame)
    (items : List Json) :
    (value place (.item before :: frames)).run
        (text ++ (restItems write gap items ++ (gap' ++ [']'])))
      = (afterItem (item.draft :: before) frames).run
        (restItems write gap items ++ (gap' ++ [']'])) := by
  obtain ⟨c, rest, hrest, hc⟩ : ∃ c rest,
      restItems write gap items ++ (gap' ++ [']']) = c :: rest ∧ isDelimiter c = true :=
    exists_delimiter _ items hgap rfl
  rw [run_append, hrest, (h place (.item before :: frames)).run_cons hc]
  rfl

/-- **The items after the first**, up to the closing bracket. -/
theorem run_restItems (hgap : IsSpace gap) (hgap' : IsSpace gap') {items : List Json}
    (h : ∀ item ∈ items, Spells (write item) item.draft) (before : List Draft)
    (frames : List Frame) :
    (afterItem before frames).run (restItems write gap items ++ (gap' ++ [']']))
      = Scan.deliver (.array (before.reverse ++ itemDrafts items) .closed) frames := by
  induction items generalizing before with
  | nil =>
    rw [itemDrafts, List.append_nil, restItems, List.flatMap_nil, List.nil_append,
      run_afterItem_append hgap']
    rfl
  | cons item items ih =>
    have htext : restItems write gap (item :: items) ++ (gap' ++ [']'])
        = ',' :: (gap ++ (write item ++ (restItems write gap items ++ (gap' ++ [']'])))) := by
      simp only [restItems, List.flatMap_cons, List.cons_append, List.append_assoc]
    rw [htext, run_cons,
      show (afterItem before frames).step ',' = value .nextItem (.item before :: frames) from rfl,
      run_value_append hgap, run_item (h item List.mem_cons_self) hgap',
      ih (fun item' h' => h item' (List.mem_cons_of_mem _ h')), itemDrafts, List.reverse_cons,
      List.append_assoc, List.singleton_append]

/-- **An array** with some items. -/
theorem array (write : Json → List Char) (hgap : IsSpace gap) (hgap' : IsSpace gap')
    {item : Json} {items : List Json}
    (h : ∀ v ∈ item :: items, Spells (write v) v.draft) :
    Spells ('[' :: (gap ++ (write item ++ (restItems write gap items ++ (gap' ++ [']'])))))
      (Json.array (item :: items)).draft := by
  intro place frames
  rw [run_cons,
    show (value place frames).step '[' = value .firstItem (.item [] :: frames) from rfl,
    run_value_append hgap, run_item (h item List.mem_cons_self) hgap',
    run_restItems hgap hgap' (fun v hv => h v (List.mem_cons_of_mem _ hv)), List.reverse_singleton,
    List.singleton_append]
  exact .deliver _ frames

theorem array_nil : Spells "[]".toList (Json.array []).draft :=
  fun _ frames => .deliver (.array [] .closed) frames

/-! ### Objects -/

/-- A member: its key, a colon and some space, and its value. -/
def memberText (write : Json → List Char) (space : List Char) (member : String × Json) :
    List Char :=
  (quote member.1).toList ++ ':' :: (space ++ write member.2)

/-- The members after the first, each with a comma and some space before it. -/
def restMembers (write : Json → List Char) (gap space : List Char)
    (members : List (String × Json)) : List Char :=
  members.flatMap fun member => ',' :: (gap ++ memberText write space member)

/-- **One member**, where a key may start. -/
theorem run_member {member : String × Json} (h : Spells (write member.2) member.2.draft)
    (hspace : IsSpace space) (hgap : IsSpace gap') (first : Bool) (before : List Member)
    (frames : List Frame) (members : List (String × Json)) :
    (someKey first before frames).run (memberText write space member
        ++ (restMembers write gap space members ++ (gap' ++ ['\x7d'])))
      = (afterMember ((.ok member.1, member.2.draft) :: before) frames).run
        (restMembers write gap space members ++ (gap' ++ ['\x7d'])) := by
  obtain ⟨c, rest, hrest, hc⟩ : ∃ c rest,
      restMembers write gap space members ++ (gap' ++ ['\x7d']) = c :: rest
        ∧ isDelimiter c = true :=
    exists_delimiter _ members hgap rfl
  have hcolon : (colon (.ok member.1) before frames).step ':'
      = value .memberValue (.member before (.ok member.1) :: frames) := rfl
  rw [hrest, memberText, List.append_assoc, run_append, run_key, List.cons_append, run_cons,
    hcolon, List.append_assoc, run_value_append hspace, run_append,
    (h .memberValue (.member before (.ok member.1) :: frames)).run_cons hc]
  rfl

/-- **The members after the first**, up to the closing bracket. -/
theorem run_restMembers (hgap : IsSpace gap) (hgap' : IsSpace gap') (hspace : IsSpace space)
    {members : List (String × Json)}
    (h : ∀ member ∈ members, Spells (write member.2) member.2.draft) (before : List Member)
    (frames : List Frame) :
    (afterMember before frames).run (restMembers write gap space members ++ (gap' ++ ['\x7d']))
      = Scan.deliver (.object (before.reverse ++ memberDrafts members) .closed) frames := by
  induction members generalizing before with
  | nil =>
    rw [memberDrafts, List.append_nil, restMembers, List.flatMap_nil, List.nil_append,
      run_afterMember_append hgap']
    rfl
  | cons member members ih =>
    have htext : restMembers write gap space (member :: members) ++ (gap' ++ ['\x7d'])
        = ',' :: (gap ++ (memberText write space member
          ++ (restMembers write gap space members ++ (gap' ++ ['\x7d'])))) := by
      simp only [restMembers, List.flatMap_cons, List.cons_append, List.append_assoc]
    rw [htext, run_cons,
      show (afterMember before frames).step ',' = someKey false before frames from rfl,
      run_someKey_append hgap, run_member (h member List.mem_cons_self) hspace hgap',
      ih (fun member' h' => h member' (List.mem_cons_of_mem _ h')), memberDrafts,
      List.reverse_cons, List.append_assoc, List.singleton_append]

/-- **An object** with some members. -/
theorem object (write : Json → List Char) (hgap : IsSpace gap) (hgap' : IsSpace gap')
    (hspace : IsSpace space)
    {member : String × Json} {members : List (String × Json)}
    (h : ∀ m ∈ member :: members, Spells (write m.2) m.2.draft) :
    Spells ('\x7b' :: (gap ++ (memberText write space member
        ++ (restMembers write gap space members ++ (gap' ++ ['\x7d'])))))
      (Json.object (member :: members)).draft := by
  intro place frames
  rw [run_cons,
    show (value place frames).step '\x7b' = someKey true [] frames from rfl,
    run_someKey_append hgap, run_member (h member List.mem_cons_self) hspace hgap',
    run_restMembers hgap hgap' hspace (fun m hm => h m (List.mem_cons_of_mem _ hm)),
    List.reverse_singleton, List.singleton_append]
  exact .deliver _ frames

theorem object_nil : Spells "\x7b\x7d".toList (Json.object []).draft :=
  fun _ frames => .deliver (.object [] .closed) frames

end Spells

/-! ## The two forms -/

open Spells

theorem isSpace_nil : IsSpace [] := fun _ h => absurd h List.not_mem_nil

theorem isSpace_breakLine (level : Nat) : IsSpace (breakLine level).toList := by
  intro c hc
  simp only [breakLine, String.toList_append, String.toList_ofList, List.mem_append] at hc
  rcases hc with hc | hc
  · rw [List.mem_singleton.mp hc]
    rfl
  · rw [List.eq_of_mem_replicate hc]
    rfl

theorem toList_compactItems (items : List Json) :
    (compactItems items).toList = restItems (fun v => v.compact.toList) [] items := by
  induction items with
  | nil => rfl
  | cons item items ih =>
    rw [compactItems, String.toList_append, String.toList_append, ih]
    rfl

theorem toList_compactMembers (members : List (String × Json)) :
    (compactMembers members).toList = restMembers (fun v => v.compact.toList) [] [] members := by
  induction members with
  | nil => rfl
  | cons member members ih =>
    obtain ⟨key, value⟩ := member
    simp only [compactMembers, String.toList_append, ih, restMembers, List.flatMap_cons,
      memberText, List.append_assoc, List.cons_append]
    rfl

/-- **The compact form spells the value.** -/
theorem spells_compact {v : Json} (h : v.HasDigits) : Spells v.compact.toList v.draft := by
  induction h with
  | null => exact .null
  | bool b =>
    cases b with
    | true => exact .ofTrue
    | false => exact .ofFalse
  | number h => exact .number h
  | string s => exact .string s
  | @array items _ ih =>
    cases items with
    | nil => exact .array_nil
    | cons item items =>
      have h := Spells.array (fun v => v.compact.toList) isSpace_nil isSpace_nil ih
      simp only [compact, String.toList_append, toList_compactItems, List.append_assoc]
      exact h
  | @object members _ ih =>
    cases members with
    | nil => exact .object_nil
    | cons member members =>
      obtain ⟨key, value⟩ := member
      have h := Spells.object (fun v => v.compact.toList) isSpace_nil isSpace_nil
        isSpace_nil ih
      simp only [memberText, List.append_assoc, List.cons_append] at h
      simp only [compact, String.toList_append, toList_compactMembers, List.append_assoc]
      exact h

theorem toList_prettyItems (level : Nat) (items : List Json) :
    (prettyItems level items).toList
      = restItems (fun v => (v.prettyAt level).toList) (breakLine level).toList items := by
  induction items with
  | nil => rfl
  | cons item items ih =>
    simp only [prettyItems, String.toList_append, ih, restItems, List.flatMap_cons,
      List.append_assoc, List.cons_append]
    rfl

theorem toList_prettyMembers (level : Nat) (members : List (String × Json)) :
    (prettyMembers level members).toList
      = restMembers (fun v => (v.prettyAt level).toList) (breakLine level).toList [' ']
        members := by
  induction members with
  | nil => rfl
  | cons member members ih =>
    obtain ⟨key, value⟩ := member
    simp only [prettyMembers, String.toList_append, ih, restMembers, List.flatMap_cons,
      memberText, List.append_assoc, List.cons_append]
    rfl

/-- **The pretty form spells the value**, at every level. -/
theorem spells_prettyAt {v : Json} (h : v.HasDigits) (level : Nat) :
    Spells (v.prettyAt level).toList v.draft := by
  induction h generalizing level with
  | null => exact .null
  | bool b =>
    cases b with
    | true => exact .ofTrue
    | false => exact .ofFalse
  | number h => exact .number h
  | string s => exact .string s
  | @array items _ ih =>
    cases items with
    | nil => exact .array_nil
    | cons item items =>
      have h := Spells.array (fun v => (v.prettyAt (level + 1)).toList)
        (isSpace_breakLine (level + 1)) (isSpace_breakLine level)
        (fun v hv => ih v hv (level + 1))
      simp only [prettyAt, String.toList_append, toList_prettyItems, List.append_assoc]
      exact h
  | @object members _ ih =>
    cases members with
    | nil => exact .object_nil
    | cons member members =>
      obtain ⟨key, value⟩ := member
      have hspace : IsSpace [' '] := fun c hc => by rw [List.mem_singleton.mp hc]; rfl
      have h := Spells.object (fun v => (v.prettyAt (level + 1)).toList)
        (isSpace_breakLine (level + 1)) (isSpace_breakLine level) hspace
        (fun m hm => ih m hm (level + 1))
      simp only [memberText, List.append_assoc, List.cons_append] at h
      simp only [prettyAt, String.toList_append, toList_prettyMembers, List.append_assoc]
      exact h

/-- A text that spells a draft is read as it, and nothing follows. -/
theorem Spells.outcome_eq {text : String} {d : Draft} (h : Spells text.toList d) :
    Outcome.ofText text = ⟨d, false⟩ :=
  (h .top []).finish_eq

/-- **What is written in the compact form is scanned back.** -/
theorem outcome_compact {v : Json} (h : v.HasDigits) :
    Outcome.ofText v.compact = ⟨v.draft, false⟩ :=
  (spells_compact h).outcome_eq

/-- **What is written in the pretty form is scanned back.** -/
theorem outcome_pretty {v : Json} (h : v.HasDigits) :
    Outcome.ofText v.pretty = ⟨v.draft, false⟩ :=
  (spells_prettyAt h 0).outcome_eq

end Json

end Offside
