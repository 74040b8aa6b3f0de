/-!
# Values that come with a record of what happened

Building a program and laying it out are functions, but both make decisions
their user may want to hear of: an `elif` that was set aside, an argument
that was left out of a call. Such a decision is an **event**, and a function
that takes some of them answers with a **logged value**: the value, and the
events in the order in which they arose.

`Logged` is a monad whose `bind` appends the two records. Nothing in it can
read the record, so what is logged never changes what is computed;
`Logged.value_bind` and `Logged.events_bind` are the two halves of that
statement, and are how a proof separates the text of a program from the
events of its rendering.
-/

namespace Offside

/-- **How much an event matters**, from the least to the most. -/
inductive Level where
  /-- A detail, for someone looking for the reason of a result. -/
  | debug
  /-- Progress worth telling. -/
  | info
  /-- Something the user should look at. -/
  | warn
  deriving Repr, DecidableEq

/-- The name of a level, as a log line shows it. -/
def Level.name : Level → String
  | .debug => "DEBUG"
  | .info => "INFO"
  | .warn => "WARN"

/-- **Something that happened on the way to a result.** -/
inductive Event where
  /-- A conditional of this kind had both an `elif` and an `else`. -/
  | keptElse (kind : String)
  /-- An argument was left out of a call of `callee`. -/
  | droppedArgument (callee : String)
  /-- The settings in this file were taken. -/
  | loadedConfig (path : String)
  /-- This file holds no valid settings and was passed over. -/
  | ignoredConfig (path : String)
  /-- A program of so many statements was read from `input`. -/
  | readProgram (input : String) (statements : Nat)
  /-- Text in `language` was written to the file `output`. -/
  | wroteOutput (output : String) (language : String)
  deriving Repr, DecidableEq

namespace Event

/-- The level an event is reported at. -/
def level : Event → Level
  | keptElse _ | droppedArgument _ | loadedConfig _ | readProgram _ _ => .debug
  | ignoredConfig _ => .warn
  | wroteOutput _ _ => .info

/-- What a log line says of an event, its particulars apart. -/
def message : Event → String
  | keptElse _ => "conditional has both elif and else, keeping else"
  | droppedArgument _ => "dropping non-literal call argument"
  | loadedConfig _ => "loaded config"
  | ignoredConfig _ => "ignoring invalid config"
  | readProgram _ _ => "read program"
  | wroteOutput _ _ => "wrote"

end Event

/-- **A value with the events that arose on the way to it**, the oldest
first. -/
structure Logged (α : Type) where
  /-- The value itself. -/
  value : α
  /-- What happened, in order. -/
  events : List Event
  deriving Repr, DecidableEq

namespace Logged

variable {α β : Type}

instance : Monad Logged where
  pure a := ⟨a, []⟩
  bind x f := ⟨(f x.value).value, x.events ++ (f x.value).events⟩

/-- Record one event. -/
def log (e : Event) : Logged Unit := ⟨(), [e]⟩

@[ext] theorem ext {x y : Logged α} (hv : x.value = y.value) (he : x.events = y.events) :
    x = y := by
  cases x; cases y; simp_all

@[simp] theorem value_pure (a : α) : (pure a : Logged α).value = a := rfl

@[simp] theorem events_pure (a : α) : (pure a : Logged α).events = [] := rfl

@[simp] theorem value_bind (x : Logged α) (f : α → Logged β) :
    (x >>= f).value = (f x.value).value := rfl

/-- **The record of a sequence is the sequence of the records.** -/
@[simp] theorem events_bind (x : Logged α) (f : α → Logged β) :
    (x >>= f).events = x.events ++ (f x.value).events := rfl

@[simp] theorem value_map (f : α → β) (x : Logged α) : (f <$> x).value = f x.value := rfl

@[simp] theorem events_map (f : α → β) (x : Logged α) : (f <$> x).events = x.events :=
  List.append_nil _

@[simp] theorem value_log (e : Event) : (log e).value = () := rfl

@[simp] theorem events_log (e : Event) : (log e).events = [e] := rfl

instance : LawfulMonad Logged :=
  LawfulMonad.mk' Logged
    (fun _ => by ext1 <;> simp) (fun _ _ => by ext1 <;> simp) (fun _ _ _ => by ext1 <;> simp)

end Logged

end Offside
