import Offside.Config.Basic
import Offside.Path.Basic

/-!
# Arguments of the command line

A command line names one of two commands and gives it an input and options.
An option has a long name and may have a short one. Some options take a value,
which may be attached to the option or be the next argument, unless that looks
like an option itself. Short options may share a dash, the last of them taking
what is left as its value. After two dashes nothing is an option.

Arguments are taken one by one from left to right, and the first that is wrong
ends it. So does a request for help or for the version, which counts even if
something after it is wrong.
-/

namespace Offside

/-- **What a command line asks for.** -/
inductive Command where
  /-- Convert a file. -/
  | convert (input : Path) (output : Option Path) (flags : Layer)
  /-- Show the program in a file. -/
  | dump (input : Path)
  deriving Repr, DecidableEq

/-- **A command line that was understood.** -/
inductive Request where
  /-- Carry out a command; tell everything that happens if `verbose`. -/
  | command (verbose : Bool) (command : Command)
  /-- Show the version. -/
  | version
  /-- Show what the command line is like. -/
  | help
  deriving Repr, DecidableEq

/-- **Why no command comes of a command line.** -/
inductive Stop where
  /-- It is wrong. -/
  | usage
  /-- It asks for something else, which is done at once. -/
  | request (r : Request)
  deriving Repr, DecidableEq

/-- **An option.** -/
inductive OptionName where
  | verbose
  | help
  | version
  | output
  | indent
  | lineEnding
  | callArguments
  | noPass
  deriving Repr, DecidableEq

namespace OptionName

/-- The long name of an option. -/
def long : OptionName → String
  | verbose => "verbose"
  | help => "help"
  | version => "version"
  | output => "output"
  | indent => "indent"
  | lineEnding => "line-ending"
  | callArguments => "call-args"
  | noPass => "no-pass"

/-- The letter of an option, if it has one. -/
def letter? : OptionName → Option Char
  | verbose => some 'v'
  | help => some 'h'
  | version => some 'V'
  | output => some 'o'
  | indent | lineEnding | callArguments | noPass => none

/-- Does the option take a value? -/
def takesValue : OptionName → Bool
  | output | indent | lineEnding | callArguments => true
  | verbose | help | version | noPass => false

/-- The options before a command. -/
def beforeCommand : List OptionName := [verbose, help, version]

/-- The options of `convert`. -/
def ofConvert : List OptionName :=
  [verbose, help, output, indent, lineEnding, callArguments, noPass]

/-- The options of `dump`. -/
def ofDump : List OptionName := [verbose, help]

end OptionName

/-- **What was given to a command so far.** -/
structure Given where
  /-- Is everything to be told? -/
  verbose : Bool := false
  /-- The input. -/
  input : Option Path := none
  /-- The output. -/
  output : Option Path := none
  /-- The options of the layout. -/
  flags : Layer := {}
  /-- The option whose value comes next. -/
  pending : Option OptionName := none
  /-- Have options ended? -/
  ended : Bool := false
  deriving Repr, DecidableEq

/-- The greatest number that an option takes. -/
def maxCount : Nat := 0xFFFFFFFFFFFFFFFF

/-- **A number as an option takes it**: decimal digits, which may have a plus
sign before them. -/
def parseCount? (text : String) : Option Nat :=
  let digits := match text.toList with
    | '+' :: digits => digits
    | digits => digits
  if digits.isEmpty ∨ ¬ digits.all (fun c => '0' ≤ c && c ≤ '9') then none
  else
    let n := digits.foldl (fun n c => n * 10 + (c.toNat - '0'.toNat)) 0
    if n ≤ maxCount then some n else none

/-- A path as an option takes it. -/
def parsePath? (text : String) : Option Path := if text = "" then none else some ⟨text⟩

/-- **A value for a place that has none yet.** -/
def fill {α : Type} (place : Option α) (value : Option α) : Except Stop (Option α) :=
  match place, value with
  | none, some a => .ok (some a)
  | _, _ => .error .usage

namespace Given

/-- **An option that takes no value.** No option is given twice. -/
def switch (g : Given) : OptionName → Except Stop Given
  | .help => .error (.request .help)
  | .version => .error (.request .version)
  | .verbose => if g.verbose then .error .usage else .ok { g with verbose := true }
  | .noPass => do
    return { g with flags.passEmptyBodies := ← fill g.flags.passEmptyBodies (some false) }
  | .output | .indent | .lineEnding | .callArguments => .error .usage

/-- **An option and its value.** No option is given twice. -/
def value (g : Given) (text : String) : OptionName → Except Stop Given
  | .output => do return { g with output := ← fill g.output (parsePath? text) }
  | .indent => do
    return { g with flags.indentWidth := ← fill g.flags.indentWidth (parseCount? text) }
  | .lineEnding => do
    let ending := (LineEnding.parse text).toOption
    return { g with flags.lineEnding := ← fill g.flags.lineEnding ending }
  | .callArguments => do
    let mode := (CallArguments.parse text).toOption
    return { g with flags.callArguments := ← fill g.flags.callArguments mode }
  | .verbose | .help | .version | .noPass => .error .usage

/-- **An argument that is no option**: the input, of which there is one. -/
def positional (g : Given) (text : String) : Except Stop Given := do
  return { g with input := ← fill g.input (parsePath? text) }

/-- **A long option**, its dashes apart. -/
def long (options : List OptionName) (g : Given) (text : List Char) : Except Stop Given :=
  let name := String.ofList (text.takeWhile (· ≠ '='))
  match options.find? (·.long == name), text.dropWhile (· ≠ '=') with
  | none, _ => .error .usage
  | some o, [] =>
    if o.takesValue then .ok { g with pending := some o } else g.switch o
  | some o, _ :: attached =>
    if o.takesValue then g.value (String.ofList attached) o else .error .usage

/-- **Short options**, their dash apart. -/
def short (options : List OptionName) (g : Given) : List Char → Except Stop Given
  | [] => .ok g
  | letter :: rest =>
    match options.find? (·.letter? == some letter) with
    | none => .error .usage
    | some o =>
      if o.takesValue then
        match rest with
        | [] => .ok { g with pending := some o }
        | '=' :: attached => g.value (String.ofList attached) o
        | attached => g.value (String.ofList attached) o
      else do
        let g ← g.switch o
        g.short options rest

/-- **One argument.** -/
def take (options : List OptionName) (g : Given) (arg : String) : Except Stop Given :=
  if g.ended then g.positional arg
  else match g.pending, arg.toList with
    | some _, '-' :: _ :: _ => .error .usage
    | some o, _ => { g with pending := none }.value arg o
    | none, ['-', '-'] => .ok { g with ended := true }
    | none, '-' :: '-' :: rest => g.long options rest
    | none, '-' :: c :: rest => g.short options (c :: rest)
    | none, _ => g.positional arg

/-- **All arguments of a command.** -/
def ofArguments (options : List OptionName) (g : Given) (args : List String) :
    Except Stop Given := do
  let g ← args.foldlM (take options) g
  if g.pending.isSome then .error .usage else return g

end Given

/-- **The command of this name**, with its options and what is made of what is
given to it. -/
def commandNamed? (name : String) : Option (List OptionName × (Path → Given → Command)) :=
  match name with
  | "convert" | "c" => some (OptionName.ofConvert, fun input g => .convert input g.output g.flags)
  | "dump" => some (OptionName.ofDump, fun input _ => .dump input)
  | _ => none

/-- **The arguments after a command's name.** -/
def commandRequest (verbose : Bool) (options : List OptionName)
    (command : Path → Given → Command) (args : List String) : Except Stop Request := do
  let g ← Given.ofArguments options {} args
  match g.input with
  | some input => return .command (verbose || g.verbose) (command input g)
  | none => .error .usage

/-- The arguments after the word `help`: a command at most. -/
def helpRequest : List String → Except Stop Request
  | [] => .ok .help
  | [name] => if name = "help" ∨ (commandNamed? name).isSome then .ok .help else .error .usage
  | _ => .error .usage

/-- **A whole command line**, after some options that stand before the
command. -/
def parseRequest (g : Given) : List String → Except Stop Request
  | [] => .error .usage
  | arg :: args =>
    match commandNamed? arg, arg.toList with
    | some (options, command), _ => commandRequest g.verbose options command args
    | none, '-' :: '-' :: c :: rest => do
      parseRequest (← g.long OptionName.beforeCommand (c :: rest)) args
    | none, '-' :: c :: rest => do
      if c = '-' then .error .usage
      parseRequest (← g.short OptionName.beforeCommand (c :: rest)) args
    | none, _ => if arg = "help" then helpRequest args else .error .usage

/-- **What a command line asks for**, or nothing if it is wrong. -/
def Request.ofArguments (args : List String) : Option Request :=
  match parseRequest {} args with
  | .ok r => some r
  | .error (.request r) => some r
  | .error .usage => none

end Offside
