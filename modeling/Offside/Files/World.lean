import Offside.Files.Tree
import Offside.Log

/-!
# Commands and the world around them

A command reads files, writes files, prints and logs, and does nothing else to
the world. `MonadFiles` names these four, so that what a command does can be
written once and be carried out twice: by a program on a real machine, and
here, as a function on a value.

That value is a **world**: a tree of files, the directory the command is
started in, the text printed so far and the events logged so far. Statements
about what a command leaves untouched are statements about worlds.
-/

namespace Offside

/-- **What a command may do.** -/
class MonadFiles (m : Type → Type) where
  /-- Read all of a file. -/
  readBytes : Path → m (Except FileError ByteArray)
  /-- Write all of a file, or leave it as it is. -/
  writeBytes : Path → ByteArray → m (Except FileError Unit)
  /-- Print a text. -/
  print : String → m Unit
  /-- Log an event. -/
  log : Event → m Unit

namespace MonadFiles

/-- A command that may fail does the same as one that may not. -/
instance {ε : Type} {m : Type → Type} [Monad m] [MonadFiles m] : MonadFiles (ExceptT ε m) where
  readBytes p := ExceptT.lift (readBytes p)
  writeBytes p bytes := ExceptT.lift (writeBytes p bytes)
  print text := ExceptT.lift (print text)
  log e := ExceptT.lift (log e)

variable {m : Type → Type} [Monad m] [MonadFiles m]

/-- **The text of a file**, if its bytes are one. -/
def readText (p : Path) : m (Except FileError String) := do
  match ← readBytes p with
  | .error e => return .error e
  | .ok bytes =>
    match String.fromUTF8? bytes with
    | some text => return .ok text
    | none => return .error .notUtf8

/-- Write a text to a file. -/
def writeText (p : Path) (text : String) : m (Except FileError Unit) :=
  writeBytes p text.toUTF8

/-- Log what was logged on the way to a value, and go on with the value. -/
def replay {α : Type} (x : Logged α) : m α := do
  x.events.forM log
  return x.value

end MonadFiles

/-- **The world as a command sees it.** -/
structure World where
  /-- The files. -/
  files : FileTree
  /-- The directory that paths start in. -/
  directory : Location
  /-- What was printed. -/
  printed : String
  /-- What was logged, in order. -/
  events : List Event

namespace World

/-- A world in which nothing was printed or logged. -/
def ofFiles (files : FileTree) (directory : Location) : World := ⟨files, directory, "", []⟩

instance : MonadFiles (StateM World) where
  readBytes p := do
    let w ← get
    return w.files.read w.directory p
  writeBytes p bytes := do
    let w ← get
    match w.files.write w.directory p bytes with
    | .ok files =>
      set { w with files }
      return .ok ()
    | .error e => return .error e
  print text := modify fun w => { w with printed := w.printed ++ text }
  log e := modify fun w => { w with events := w.events ++ [e] }

end World

end Offside
