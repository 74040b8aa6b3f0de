import Offside.ParseTree.Json
import Offside.Program.OfParseTree

/-!
# The program in a text

The text that a parser hands over holds a parse tree, and the parse tree holds
a program. Either step may fail, the first before the second.
-/

namespace Offside

/-- **Why a text holds no program.** -/
inductive ReadError where
  /-- It holds no parse tree. -/
  | malformed (e : Json.Error)
  /-- Its parse tree holds no program. -/
  | defective (d : Defect)
  deriving Repr, DecidableEq

/-- What is said of such a text. -/
def ReadError.message : ReadError → String
  | malformed e => "parse error: " ++ e.message
  | defective d => d.message

/-- **The program that a text holds**, with the events of the reading. -/
def Program.ofSource (source : String) : ExceptT ReadError Logged Program :=
  match ParseTree.ofText source with
  | .error e => throw (.malformed e)
  | .ok tree => (Program.ofParseTree tree).adapt .defective

end Offside
