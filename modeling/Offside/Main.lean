import Offside.CommandLine.Run

/-!
# The program

Carries out its command line on the machine it runs on. Events are written to
the standard error, warnings always and the others on request.
-/

namespace Offside

/-- The error with this number, which may have got a minus sign on the way. -/
def FileError.ofNumber? (number : UInt32) : Option FileError :=
  match min number (-number) with
  | 20 => some .notDirectory
  | 21 => some .isDirectory
  | 36 => some .nameTooLong
  | _ => none

/-- **The error behind a failure of the machine.** -/
def FileError.ofMachine (e : IO.Error) : FileError :=
  match e with
  | .noFileOrDirectory _ _ _ => .notFound
  | .inappropriateType _ number _ | .invalidArgument _ number _ =>
    (ofNumber? number).getD (.other (toString e))
  | _ => .other (toString e)

/-- A line about an event. -/
def Event.line (e : Event) : String :=
  let particulars := match e with
    | .keptElse kind => " node=" ++ kind
    | .droppedArgument callee => " callee=" ++ callee
    | .loadedConfig path => " path=" ++ path
    | .ignoredConfig path => " path=" ++ path
    | .readProgram input statements => " input=" ++ input ++ " statements=" ++ toString statements
    | .wroteOutput output language => " output=" ++ output ++ " language=" ++ language
  e.level.name ++ " " ++ e.message ++ particulars

/-- The machine, and whether all events are to be told. -/
abbrev Machine := ReaderT Bool IO

instance : MonadFiles Machine where
  readBytes p := do
    try return .ok (← IO.FS.readBinFile p.text)
    catch e => return .error (.ofMachine e)
  writeBytes p bytes := do
    try
      IO.FS.writeBinFile p.text bytes
      return .ok ()
    catch e => return .error (.ofMachine e)
  print text := do
    let out ← IO.getStdout
    out.putStr text
    out.flush
  log e := do
    if (← read) || e.level == .warn then IO.eprintln e.line

/-- Are all events of this command line to be told? -/
def wantsEverything (args : List String) : Bool :=
  match Request.ofArguments args with
  | some (.command verbose _) => verbose
  | _ => false

end Offside

/-- The command line of the program. -/
def main (args : List String) : IO UInt32 := do
  let environment : Offside.Environment :=
    ⟨← IO.getEnv "XDG_CONFIG_HOME", ← IO.getEnv "HOME"⟩
  let directory : Offside.Path := ⟨toString (← IO.currentDir)⟩
  let exit ← (Offside.runArguments environment directory args : Offside.Machine Offside.Exit).run
    (Offside.wantsEverything args)
  exit.message?.forM IO.eprintln
  return exit.status.toUInt32
