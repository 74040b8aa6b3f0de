import Offside.Layout.Options

/-!
# Layers of settings

Settings come from several places: a file for the user, a file for the
project, the command line. Each of them is a **layer**, which sets some of the
options and leaves the others alone. Layers are merged in order, a later one
winning field by field; what no layer sets has its default.

Merging is associative, and the layer that sets nothing changes nothing, so it
never matters how a sequence of layers is grouped.
-/

namespace Offside

/-- **A layer of settings**: the options it sets. -/
structure Layer where
  /-- Spaces per level of nesting. -/
  indentWidth : Option Nat := none
  /-- What stands between two lines. -/
  lineEnding : Option LineEnding := none
  /-- Whether a body without text is given the statement `pass`. -/
  passEmptyBodies : Option Bool := none
  /-- Which arguments of a call are kept. -/
  callArguments : Option CallArguments := none
  deriving Repr, DecidableEq

namespace Layer

/-- The layer that sets nothing. -/
def unset : Layer := {}

/-- **Two layers as one**: what the later one sets wins. -/
def merge (earlier later : Layer) : Layer where
  indentWidth := later.indentWidth.or earlier.indentWidth
  lineEnding := later.lineEnding.or earlier.lineEnding
  passEmptyBodies := later.passEmptyBodies.or earlier.passEmptyBodies
  callArguments := later.callArguments.or earlier.callArguments

/-- **The options under a layer**, with the defaults for what it leaves
alone. -/
def toOptions (l : Layer) : Options where
  indentWidth := l.indentWidth.getD ({} : Options).indentWidth
  lineEnding := l.lineEnding.getD ({} : Options).lineEnding
  passEmptyBodies := l.passEmptyBodies.getD ({} : Options).passEmptyBodies
  callArguments := l.callArguments.getD ({} : Options).callArguments

@[simp] theorem merge_unset (l : Layer) : l.merge unset = l := by
  simp [merge, unset]

@[simp] theorem unset_merge (l : Layer) : unset.merge l = l := by
  simp [merge, unset]

/-- **Grouping layers does not matter.** -/
theorem merge_assoc (a b c : Layer) : (a.merge b).merge c = a.merge (b.merge c) := by
  simp [merge, Option.or_assoc]

/-- Nothing set means the default options. -/
@[simp] theorem toOptions_unset : unset.toOptions = {} := rfl

end Layer

end Offside
