/-!
# Joining texts

Layout joins texts twice over: the lines of a block with line breaks, the
parts of an expression with spaces. In both, a part that has no text leaves
no trace, not even a separator. `joinNonEmpty` is that operation.
-/

namespace Offside

/-- **The texts that are not empty, with `separator` between them.** -/
def joinNonEmpty (separator : String) (texts : List String) : String :=
  separator.intercalate (texts.filter (· ≠ ""))

@[simp] theorem joinNonEmpty_nil (separator : String) : joinNonEmpty separator [] = "" := rfl

/-- An empty text leaves no trace in a join. -/
@[simp] theorem joinNonEmpty_empty_cons (separator : String) (texts : List String) :
    joinNonEmpty separator ("" :: texts) = joinNonEmpty separator texts := rfl

end Offside
