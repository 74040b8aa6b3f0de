/-!
# Paths

A path is a text, and stays the text it was given as. What it names is told by
its **components**: the names between the slashes, where a slash too many, a
slash at the end and a lone dot after the start mean nothing. Two paths with
the same components are the same path, however they are spelled.

The last component is the **file name**, if it is a name. What follows its last
dot is the extension, unless the dot is where the name starts. Giving a path
another extension cuts its text after the stem of the file name, so whatever
stood behind the name is lost, and everything before it is kept as it was
spelled.
-/

namespace Offside

/-- **A path**, as it was spelled. -/
structure Path where
  /-- The spelling. -/
  text : String
  deriving Repr, DecidableEq

/-- **A component of a path.** -/
inductive Component where
  /-- The slash that an absolute path starts with. -/
  | root
  /-- The dot that a path may start with. -/
  | current
  /-- Two dots. -/
  | parent
  /-- A name. -/
  | name (n : String)
  deriving Repr, DecidableEq

/-- **The texts between slashes**, the empty ones among them. -/
def splitSlash : List Char → List (List Char)
  | [] => [[]]
  | c :: cs =>
    if c = '/' then [] :: splitSlash cs
    else match splitSlash cs with
      | segment :: segments => (c :: segment) :: segments
      | [] => [[c]]

namespace Path

/-- What a text between slashes names, if it stands after the first one. -/
def componentOf? (segment : List Char) : Option Component :=
  match segment with
  | [] | ['.'] => none
  | ['.', '.'] => some .parent
  | _ => some (.name (String.ofList segment))

/-- **The components of a path.** -/
def components (p : Path) : List Component :=
  match splitSlash p.text.toList with
  | [] :: segments =>
    (if segments.isEmpty then [] else [.root]) ++ segments.filterMap componentOf?
  | ['.'] :: segments => .current :: segments.filterMap componentOf?
  | segments => segments.filterMap componentOf?

/-- **Do two paths have the same components?** -/
def isSame (p q : Path) : Bool := p.components == q.components

/-- A path read from its end, without the slashes and dots there that mean
nothing. -/
def dropIgnored : List Char → List Char
  | '/' :: rev => dropIgnored rev
  | '.' :: '/' :: rev => dropIgnored rev
  | rev => rev

/-- **A path cut at its file name**: what stands before the name, the name,
and what is ignored behind it. Nothing if the last component is no name. -/
def splitFileName? (p : Path) : Option (String × String × String) :=
  let rev := p.text.toList.reverse
  let kept := dropIgnored rev
  let name := (kept.takeWhile (· ≠ '/')).reverse
  match name with
  | [] | ['.'] | ['.', '.'] => none
  | _ =>
    some (String.ofList (kept.dropWhile (· ≠ '/')).reverse, String.ofList name,
      String.ofList (rev.take (rev.length - kept.length)).reverse)

/-- **A file name cut at its last dot**: the stem, and the extension if there
is one. A dot at the start of the name does not count. -/
def splitExtension (name : String) : String × Option String :=
  let rev := name.toList.reverse
  let ext := (rev.takeWhile (· ≠ '.')).reverse
  match rev.dropWhile (· ≠ '.') with
  | [] | ['.'] => (name, none)
  | _ :: stem => (String.ofList stem.reverse, some (String.ofList ext))

/-- **The file name of a path.** -/
def fileName? (p : Path) : Option String := p.splitFileName?.map fun (_, name, _) => name

/-- **The extension of a path.** -/
def extension? (p : Path) : Option String := p.fileName?.bind fun name => (splitExtension name).2

/-- **The path with another extension.** Without a file name it stays as it is.
A file name of two dots and an extension is cut to the two dots if nothing
stands behind it. -/
def withExtension (p : Path) (ext : String) : Path :=
  match p.splitFileName? with
  | none => p
  | some (before, name, ignored) =>
    let stem := (splitExtension name).1
    if stem = "." ∧ ignored = "" then ⟨before ++ ".."⟩ else ⟨before ++ stem ++ "." ++ ext⟩

/-- Is the path absolute? -/
def isAbsolute (p : Path) : Bool := p.text.toList.head? == some '/'

/-- **One path after the other.** An absolute one stands for itself. -/
def join (p q : Path) : Path :=
  if q.isAbsolute then q
  else if p.text.isEmpty ∨ p.text.toList.getLast? = some '/' then ⟨p.text ++ q.text⟩
  else ⟨p.text ++ "/" ++ q.text⟩

end Path

end Offside
