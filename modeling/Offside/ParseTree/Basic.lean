/-!
# Parse trees

A parser for the source language hands over a tree of labelled nodes. A node
names the rule or the terminal it was recognised as; a terminal carries the
words it covers, and a rule carries the nodes it was recognised from. Nothing
stops a node from carrying both, and then its children count: what a node
covers is what its children cover, and its own text only if it has none.
-/

namespace Offside

/-- **A node of a parse tree.** -/
structure ParseTree where
  /-- The name of a rule or of a terminal. -/
  kind : String
  /-- The words a terminal covers. -/
  text : Option String
  /-- The nodes a rule was recognised from. -/
  children : List ParseTree
  deriving BEq, Repr

namespace ParseTree

/-- A terminal and the text it covers. -/
def leaf (kind text : String) : ParseTree := ⟨kind, some text, []⟩

/-- A rule and the nodes it was recognised from. -/
def rule (kind : String) (children : List ParseTree) : ParseTree := ⟨kind, none, children⟩

mutual

/-- **The source text a node covers**: that of its children, or its own if it
has no children. -/
def sourceText : ParseTree → String
  | ⟨_, text, []⟩ => text.getD ""
  | ⟨_, _, child :: children⟩ => child.sourceText ++ sourceTextOf children

/-- The source text that nodes cover together. -/
def sourceTextOf : List ParseTree → String
  | [] => ""
  | tree :: trees => tree.sourceText ++ sourceTextOf trees

end

/-- **The tokens of an operator or a literal**: one for each child, or its own
text if it has no children. -/
def tokens : ParseTree → List String
  | ⟨_, text, []⟩ => text.toList
  | ⟨_, _, children⟩ => children.map sourceText

end ParseTree

end Offside
