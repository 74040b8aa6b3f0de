import Offside.CommandLine.Arguments

/-!
# Commands are carried out last

What ends the arguments before all of them were looked at is a fault, or a request for help
or for the version, which is granted at once. It is never a command. So a command that is
carried out comes of a command line that was understood to its end
(`parseRequest_of_ofArguments`).
-/

namespace Offside

/-- **No command is carried out at once**: what makes an end of the arguments is a fault, or
a request for help or for the version. -/
def EndsWithoutCommand {α : Type} (x : Except Stop α) : Prop :=
  ∀ verbose c, x ≠ .error (.request (.command verbose c))

namespace EndsWithoutCommand

variable {α β : Type}

theorem ok (a : α) : EndsWithoutCommand (.ok a) := fun _ _ => nofun

theorem usage : EndsWithoutCommand (.error .usage : Except Stop α) := fun _ _ => nofun

theorem bind {x : Except Stop α} {f : α → Except Stop β} (hx : EndsWithoutCommand x)
    (hf : ∀ a, EndsWithoutCommand (f a)) : EndsWithoutCommand (x >>= f) := by
  cases x with
  | error stop => exact fun verbose c heq => hx verbose c (congrArg _ (Except.error.inj heq))
  | ok a => exact hf a

theorem fill (place value : Option α) : EndsWithoutCommand (fill place value) := by
  unfold Offside.fill
  split
  · exact ok _
  · exact usage

variable (g : Given) (options : List OptionName)

theorem value (text : String) (o : OptionName) : EndsWithoutCommand (g.value text o) := by
  cases o with
  | output | indent | lineEnding | callArguments => exact (fill _ _).bind fun _ => ok _
  | verbose | help | version | noPass => exact usage

theorem positional (text : String) : EndsWithoutCommand (g.positional text) :=
  (fill _ _).bind fun _ => ok _

theorem switch (o : OptionName) : EndsWithoutCommand (g.switch o) := by
  cases o with
  | help | version => exact fun _ _ => nofun
  | verbose =>
    rw [Given.switch]
    split
    · exact usage
    · exact ok _
  | noPass => exact (fill _ _).bind fun _ => ok _
  | output | indent | lineEnding | callArguments => exact usage

theorem long (name : List Char) : EndsWithoutCommand (g.long options name) := by
  rw [Given.long]
  split
  · exact usage
  · split
    · exact ok _
    · exact switch g _
  · split
    · exact value g _ _
    · exact usage

theorem short (letters : List Char) : EndsWithoutCommand (g.short options letters) := by
  induction letters generalizing g with
  | nil => exact ok _
  | cons letter letters ih =>
    rw [Given.short]
    split
    · exact usage
    · split
      · split
        · exact ok _
        · exact value g _ _
        · exact value g _ _
      · exact (switch g _).bind fun g' => ih g'

theorem take (arg : String) : EndsWithoutCommand (g.take options arg) := by
  rw [Given.take]
  split
  · exact positional g arg
  · split
    · exact usage
    · exact value _ arg _
    · exact ok _
    · exact long g options _
    · exact short g options _
    · exact positional g arg

theorem foldlM_take (args : List String) :
    EndsWithoutCommand (args.foldlM (Given.take options) g) := by
  induction args generalizing g with
  | nil => exact ok _
  | cons arg args ih =>
    rw [List.foldlM_cons]
    exact (take g options arg).bind fun g' => ih g'

theorem commandRequest (verbose : Bool) (command : Path → Given → Command) (args : List String) :
    EndsWithoutCommand (commandRequest verbose options command args) := by
  refine bind (bind (foldlM_take {} options args) fun g => ?_) fun g => ?_
  · split
    · exact usage
    · exact ok _
  · split
    · exact ok _
    · exact usage

theorem parseRequest (args : List String) : EndsWithoutCommand (parseRequest g args) := by
  induction args generalizing g with
  | nil => exact usage
  | cons arg args ih =>
    rw [Offside.parseRequest]
    split
    · exact commandRequest _ _ _ args
    · exact (long g _ _).bind fun g' => ih g'
    · split
      · exact usage
      · exact (short g _ _).bind fun g' => ih g'
    · split
      · unfold helpRequest
        split
        · exact ok _
        · split
          · exact ok _
          · exact usage
        · exact usage
      · exact usage

end EndsWithoutCommand

/-- **A command is carried out** if all of the command line was understood. -/
theorem parseRequest_of_ofArguments {args : List String} {verbose : Bool} {c : Command}
    (h : Request.ofArguments args = some (.command verbose c)) :
    parseRequest {} args = .ok (.command verbose c) := by
  unfold Request.ofArguments at h
  split at h
  case h_1 heq => rw [heq, Option.some.inj h]
  case h_2 r heq =>
    obtain rfl := Option.some.inj h
    exact absurd heq (EndsWithoutCommand.parseRequest {} args verbose c)
  case h_3 => cases h

end Offside
