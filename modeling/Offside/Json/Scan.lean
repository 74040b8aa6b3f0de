import Offside.Json.NumberScan
import Offside.Json.StringScan

/-!
# Scanning JSON text

A text becomes a draft one character at a time: `Scan.step` is what a
character does to a scan, and the scan of a text is the fold of its characters
over it. Nothing looks ahead, and nothing is ever taken back.

While a value is being scanned, the brackets around it are open. They form a
stack of **frames**, the innermost first, each with what it holds already. A
value that is complete is **delivered** to the innermost frame. A value that
breaks off takes all of them with it: the frames are closed one after the
other, and whatever follows in the text does not count.
-/

namespace Offside

namespace Json

/-- **An open bracket**, and what stands in it before the value that is being
scanned. The last item or member comes first. -/
inductive Frame where
  /-- An array. -/
  | item (before : List Draft)
  /-- An object; the value belongs to this key. -/
  | member (before : List Member) (key : ScannedText)

/-- **Where a value may start.** -/
inductive Place where
  /-- At the start of the text. -/
  | top
  /-- After an opening bracket. -/
  | firstItem
  /-- After a comma between items. -/
  | nextItem
  /-- After a colon. -/
  | memberValue
  deriving Repr, DecidableEq

/-- **A draft with what follows it**: does the text go on after its value? -/
structure Outcome where
  /-- The value. -/
  draft : Draft
  /-- Is there more text than the value? -/
  trailing : Bool

/-- **A scan of a text.** -/
inductive Scan where
  /-- A value may start. -/
  | value (place : Place) (frames : List Frame)
  /-- Within a word: is it `null`, what is left of it, and what it means. -/
  | word (isNull : Bool) (rest : List Char) (meaning : Draft) (frames : List Frame)
  /-- Within a number. -/
  | number (scan : NumberScan) (frames : List Frame)
  /-- Within a string that is a value. -/
  | string (scan : StringScan) (frames : List Frame)
  /-- A key may start, after the opening bracket or after a comma. -/
  | someKey (first : Bool) (before : List Member) (frames : List Frame)
  /-- Within a key. -/
  | keyString (scan : StringScan) (before : List Member) (frames : List Frame)
  /-- After a key. -/
  | colon (key : ScannedText) (before : List Member) (frames : List Frame)
  /-- After an item. -/
  | afterItem (items : List Draft) (frames : List Frame)
  /-- After a member. -/
  | afterMember (members : List Member) (frames : List Frame)
  /-- After the value of the text. -/
  | done (outcome : Outcome)
  /-- The value of the text broke off. -/
  | halted (draft : Draft)

/-- Space between the parts of a value. -/
def isBlank (c : Char) : Bool := c == ' ' || c == '\t' || c == '\n' || c == '\r'

namespace Scan

/-- The scan before the first character. -/
def start : Scan := value .top []

/-- **A complete value** goes to the innermost frame. -/
def deliver (d : Draft) : List Frame → Scan
  | [] => done ⟨d, false⟩
  | .item before :: frames => afterItem (d :: before) frames
  | .member before key :: frames => afterMember ((key, d) :: before) frames

/-- **A value that breaks off** breaks off everything around it. -/
def unwind (d : Draft) : List Frame → Draft
  | [] => d
  | .item before :: frames => unwind (.array (before.reverse ++ [d]) .cut) frames
  | .member before key :: frames => unwind (.object (before.reverse ++ [(key, d)]) .cut) frames

/-- The scan after a value that breaks off. -/
def halt (d : Draft) (frames : List Frame) : Scan := halted (unwind d frames)

/-- An array that ends where its next item could start. -/
def endItems (ending : Ending) : List Frame → Scan
  | .item before :: frames =>
    match ending with
    | .closed => deliver (.array before.reverse .closed) frames
    | _ => halt (.array before.reverse ending) frames
  | frames => halt (.broken .noValue) frames

/-- The first character of a value. -/
def valueStep (place : Place) (frames : List Frame) (c : Char) : Scan :=
  if isBlank c then value place frames
  else match c with
    | '"' => string .start frames
    | '[' => value .firstItem (.item [] :: frames)
    | '\x7b' => someKey true [] frames
    | 'n' => word true ['u', 'l', 'l'] .null frames
    | 't' => word false ['r', 'u', 'e'] (.bool true) frames
    | 'f' => word false ['a', 'l', 's', 'e'] (.bool false) frames
    | '-' => number .startMinus frames
    | ']' =>
      match place with
      | .firstItem => endItems .closed frames
      | .nextItem => endItems .trailingComma frames
      | .top | .memberValue => halt (.broken .noValue) frames
    | _ =>
      match digitValue? c with
      | some digit => number (.startDigit digit) frames
      | none => halt (.broken .noValue) frames

/-- The first character of a key. -/
def keyStep (first : Bool) (before : List Member) (frames : List Frame) (c : Char) : Scan :=
  if isBlank c then someKey first before frames
  else if c = '"' then keyString .start before frames
  else if c = '\x7d' then
    if first then deliver (.object before.reverse .closed) frames
    else halt (.object before.reverse .trailingComma) frames
  else halt (.object before.reverse .noKey) frames

/-- A character after an item. -/
def afterItemStep (items : List Draft) (frames : List Frame) (c : Char) : Scan :=
  if isBlank c then afterItem items frames
  else if c = ',' then value .nextItem (.item items :: frames)
  else if c = ']' then deliver (.array items.reverse .closed) frames
  else halt (.array items.reverse .noComma) frames

/-- A character after a member. -/
def afterMemberStep (members : List Member) (frames : List Frame) (c : Char) : Scan :=
  if isBlank c then afterMember members frames
  else if c = ',' then someKey false members frames
  else if c = '\x7d' then deliver (.object members.reverse .closed) frames
  else halt (.object members.reverse .noComma) frames

/-- A character after a value. -/
def afterValueStep (s : Scan) (c : Char) : Scan :=
  match s with
  | afterItem items frames => afterItemStep items frames c
  | afterMember members frames => afterMemberStep members frames c
  | done outcome => if isBlank c then done outcome else done { outcome with trailing := true }
  | s => s

/-- **One character.** -/
def step (s : Scan) (c : Char) : Scan :=
  match s with
  | value place frames => valueStep place frames c
  | word isNull rest meaning frames =>
    match rest with
    | [] => halt (.broken (.word isNull false)) frames
    | [last] => if c = last then deliver meaning frames
      else halt (.broken (.word isNull false)) frames
    | next :: rest => if c = next then word isNull rest meaning frames
      else halt (.broken (.word isNull false)) frames
  | number scan frames =>
    match scan.step c with
    | .more scan => number scan frames
    | .done n => afterValueStep (deliver (.number n) frames) c
    | .broken => halt (.broken (.number false)) frames
  | string scan frames =>
    match scan.step c with
    | .more scan => string scan frames
    | .done text => deliver (.string text) frames
    | .broken read skip => halt (.broken (.string read skip)) frames
  | someKey first before frames => keyStep first before frames c
  | keyString scan before frames =>
    match scan.step c with
    | .more scan => keyString scan before frames
    | .done text => colon text before frames
    | .broken read skip => halt (.object before.reverse (.badKey read skip)) frames
  | colon key before frames =>
    if isBlank c then colon key before frames
    else if c = ':' then value .memberValue (.member before key :: frames)
    else halt (.broken .noColon) (.member before key :: frames)
  | afterItem _ _ | afterMember _ _ | done _ => afterValueStep s c
  | halted d => halted d

/-- The end of the text after a value. -/
def finishAfterValue : Scan → Outcome
  | done outcome => outcome
  | halted d => ⟨d, false⟩
  | afterItem items frames => ⟨unwind (.array items.reverse .eof) frames, false⟩
  | afterMember members frames => ⟨unwind (.object members.reverse .eof) frames, false⟩
  | _ => ⟨.broken .eof, false⟩

/-- **The end of the text.** -/
def finish (s : Scan) : Outcome :=
  match s with
  | value .firstItem (.item before :: frames) =>
    ⟨unwind (.array before.reverse .eof) frames, false⟩
  | value _ frames => ⟨unwind (.broken .eof) frames, false⟩
  | word isNull _ _ frames => ⟨unwind (.broken (.word isNull true)) frames, false⟩
  | number scan frames =>
    if scan.isComplete then finishAfterValue (deliver (.number scan.numeral) frames)
    else ⟨unwind (.broken (.number true)) frames, false⟩
  | string scan frames => ⟨unwind (.broken (.string scan.atEnd.1 scan.atEnd.2)) frames, false⟩
  | someKey first before frames =>
    ⟨unwind (.object before.reverse (if first then .eof else .eofAfterComma)) frames, false⟩
  | keyString scan before frames =>
    ⟨unwind (.object before.reverse (.badKey scan.atEnd.1 scan.atEnd.2)) frames, false⟩
  | colon key before frames => ⟨unwind (.broken .eofColon) (.member before key :: frames), false⟩
  | s => finishAfterValue s

/-- The scan after some text. -/
def run (s : Scan) (text : List Char) : Scan := text.foldl step s

end Scan

/-- **The draft of a text.** -/
def Outcome.ofText (text : String) : Outcome := (Scan.start.run text.toList).finish

end Json

end Offside
