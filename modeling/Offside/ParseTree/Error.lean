import Offside.ParseTree.Grammar

/-!
# What can be wrong with a parse tree

A parse tree that is no program has a first defect, and there are four kinds
of them: the root is not a whole program, a node is known but has no place
where it stands, a node is not known at all, or a node lacks a child that its
rule needs. Each keeps the kinds as the tree spells them.
-/

namespace Offside

/-- **A child that a rule needs.** -/
inductive NeededChild where
  /-- A node of this rule. -/
  | rule (r : Rule)
  /-- This terminal. -/
  | terminal (t : Terminal)
  /-- Any node. -/
  | any
  deriving Repr, DecidableEq

/-- What a needed child is called. -/
def NeededChild.name : NeededChild → String
  | rule r => r.name
  | terminal t => t.kind
  | any => "any"

/-- **The first defect of a parse tree.** -/
inductive Defect where
  /-- The root, of this kind, is not a whole program. -/
  | notStart (kind : String)
  /-- A node of this kind stands where only statements and expressions can. -/
  | misplaced (kind : String)
  /-- A node with children has a kind that names no rule. -/
  | unknownRule (kind : String)
  /-- A node of this kind lacks a child. -/
  | missingChild (kind : String) (child : NeededChild)
  deriving Repr, DecidableEq

/-- What is said of a defect. -/
def Defect.message : Defect → String
  | notStart kind => "expected " ++ Rule.start.name ++ ", got " ++ kind
  | misplaced kind => "expected statement or expression, got " ++ kind
  | unknownRule kind => "unsupported syntax: unknown rule `" ++ kind ++ "`"
  | missingChild kind child => kind ++ " is missing required child " ++ child.name

end Offside
