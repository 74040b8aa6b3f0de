import Offside.CommandLine.Arguments
import Offside.Config.Load
import Offside.Convert

/-!
# Carrying out a command line

A command line ends with a status: zero if all went well, one if a command
failed, two if the command line was wrong. What a user should hear about a
failure is a message beside it. A command that fails has printed nothing and
written nothing.
-/

namespace Offside

/-- The name of the program and its version. -/
def versionText : String := "codeconv 0.2.0"

/-- What the command line is like. -/
def usageText : String :=
  "Usage: codeconv [-v] convert [-o OUTPUT] [--indent N] [--line-ending crlf|lf]\n"
    ++ "                [--call-args literals|expressions] [--no-pass] INPUT\n"
    ++ "       codeconv [-v] dump INPUT\n"
    ++ "       codeconv --version"

/-- **How a command line ends.** -/
inductive Exit where
  /-- All went well. -/
  | success
  /-- A command failed. -/
  | failed (f : Failure)
  /-- The command line was wrong. -/
  | misused
  deriving Repr, DecidableEq

namespace Exit

/-- The status that is reported. -/
def status : Exit → Nat
  | success => 0
  | failed _ => 1
  | misused => 2

/-- What the user is told, if anything. -/
def message? : Exit → Option String
  | success => none
  | failed f => some ("error: " ++ f.message)
  | misused => some usageText

end Exit

variable {m : Type → Type} [Monad m] [MonadFiles m]

/-- **Carry out a command**, in an environment and a directory. Flags are the
last layer of settings. -/
def Command.run (e : Environment) (directory : Path) : Command → ExceptT Failure m Unit
  | .convert input output flags => do
    let layer ← loadLayers e.globalSettings? directory
    let _ ← convertFile input output (layer.merge flags).toOptions
  | .dump input => do
    let text ← dumpFile input
    MonadFiles.print (text ++ "\n")

/-- **Carry out a request.** -/
def Request.run (e : Environment) (directory : Path) : Request → m Exit
  | .command _ c => do
    match ← (c.run e directory).run with
    | .ok () => return .success
    | .error f => return .failed f
  | .version => do
    MonadFiles.print (versionText ++ "\n")
    return .success
  | .help => do
    MonadFiles.print (usageText ++ "\n")
    return .success

/-- **Carry out a command line.** -/
def runArguments (e : Environment) (directory : Path) (args : List String) : m Exit :=
  match Request.ofArguments args with
  | some request => request.run e directory
  | none => return .misused

end Offside
