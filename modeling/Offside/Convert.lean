import Offside.Files.World
import Offside.Layout.Render
import Offside.Program.Json
import Offside.Program.Source

/-!
# Converting files

A conversion reads a program from a file, lays it out and delivers the text:
to a file of its own, next to the input unless another one is named, or to the
standard output. Which file holds a program is told by its extension.

Everything that can fail before the text is delivered is done before anything
is delivered, and delivering is a single step. So a conversion that fails has
written nothing.
-/

namespace Offside

/-- **The form that programs are read in.** -/
structure SourceFormat where
  /-- Its name. -/
  name : String
  /-- The extensions of its files. -/
  extensions : List String
  deriving Repr, DecidableEq

/-- **The form that programs are written in.** -/
structure TargetLanguage where
  /-- Its name. -/
  name : String
  /-- The extension of its files. -/
  extension : String
  deriving Repr, DecidableEq

/-- Parse trees as JSON. -/
def parseTreeFormat : SourceFormat := ⟨"parse-tree", ["json"]⟩

/-- The language of the layout. -/
def python : TargetLanguage := ⟨"python", "py"⟩

/-- **Why a conversion fails.** -/
inductive Failure where
  /-- The extension of the input names no format. -/
  | noReader (input : Path)
  /-- The input cannot be read. -/
  | unreadable (input : Path) (e : FileError)
  /-- The input holds no program. -/
  | noProgram (input : Path) (e : ReadError)
  /-- The output cannot be written. -/
  | unwritable (output : Path) (e : FileError)
  deriving Repr, DecidableEq

/-- What is said of a failure. -/
def Failure.message : Failure → String
  | noReader input => "no reader for " ++ input.text ++ " (expected a .json parse tree)"
  | unreadable input e => "failed to read " ++ input.text ++ ": " ++ e.message
  | noProgram input e =>
    "failed to read " ++ parseTreeFormat.name ++ " tree from " ++ input.text ++ ": " ++ e.message
  | unwritable output e => "failed to write " ++ output.text ++ ": " ++ e.message

/-- **The format of a file**, if its extension names one. -/
def formatOf? (p : Path) : Option SourceFormat :=
  if parseTreeFormat.extensions.contains (p.extension?.getD "") then some parseTreeFormat else none

/-- **Where a text goes.** -/
inductive Destination where
  /-- To the standard output. -/
  | stdout
  /-- To a file. -/
  | file (p : Path)
  deriving Repr, DecidableEq

/-- **Where the text of an input goes.** A lone dash means the standard output;
where no output is named it is the input with the extension of the language. -/
def Destination.resolve (input : Path) (output : Option Path) : Destination :=
  match output with
  | some p => if p.isSame ⟨"-"⟩ then stdout else file p
  | none => file (input.withExtension python.extension)

variable {m : Type → Type} [Monad m] [MonadFiles m]

/-- **Read a program from a file.** -/
def readProgram (input : Path) : ExceptT Failure m Program := do
  if (formatOf? input).isNone then throw (.noReader input)
  let source ← match ← MonadFiles.readText input with
    | .ok source => pure source
    | .error e => throw (.unreadable input e)
  match ← MonadFiles.replay (Program.ofSource source).run with
  | .error e => throw (.noProgram input e)
  | .ok program =>
    MonadFiles.log (.readProgram input.text program.body.length)
    return program

/-- **Deliver a text.** A text that is printed is a line of its own. -/
def deliver (destination : Destination) (text : String) : ExceptT Failure m Unit :=
  match destination with
  | .stdout => MonadFiles.print (text ++ "\n")
  | .file p => do
    match ← MonadFiles.writeText p text with
    | .error e => throw (.unwritable p e)
    | .ok () => MonadFiles.log (.wroteOutput p.text python.name)

/-- **Convert a file**: where the text went, and the text. -/
def convertFile (input : Path) (output : Option Path) (o : Options) :
    ExceptT Failure m (Destination × String) := do
  let program ← readProgram input
  let text ← MonadFiles.replay (program.render o)
  let destination := Destination.resolve input output
  deliver destination text
  return (destination, text)

/-- **The program of a file as JSON.** -/
def dumpFile (input : Path) : ExceptT Failure m String := do
  let program ← readProgram input
  return program.toJson.pretty

end Offside
