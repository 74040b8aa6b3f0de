/-!
# TOML values

A TOML document is a table of values. Tables are written in several ways, and
which way decides what may be added to a table later: a table that got its
header, one that is only implied by the header of a table within it, one made
by a dotted key, one written in braces. So a table remembers its **origin**
while a document is read.

* A header may complete a table that was implied, and no other.
* A dotted key may add to tables made by dotted keys, and pass through implied
  ones on its way to one.
* Nothing is ever added to a table in braces.

An array of tables grows by headers in double brackets, and a header or a key
that leads through it leads through its last table.
-/

namespace Offside

/-- **How a table came to be.** -/
inductive TableOrigin where
  /-- By its header, or as the whole document. -/
  | header
  /-- By the header of a table within it. -/
  | implied
  /-- By a dotted key. -/
  | dotted
  deriving Repr, DecidableEq

/-- **A TOML value.** Of numbers with a fraction and of points in time only
their form matters here. -/
inductive Toml where
  | string (s : String)
  | integer (i : Int)
  | float
  | boolean (b : Bool)
  | datetime
  | array (items : List Toml)
  /-- A table in braces. -/
  | inlineTable (members : List (String × Toml))
  /-- Any other table. -/
  | table (origin : TableOrigin) (members : List (String × Toml))
  /-- An array of tables, by their members. -/
  | tables (elements : List (List (String × Toml)))
  deriving Inhabited

namespace Toml

/-- The members of a table. -/
abbrev Members := List (String × Toml)

/-- The members with another value for a key that is among them. -/
def replaceMember (key : String) (value : Toml) (members : Members) : Members :=
  members.map fun m => if m.1 = key then (key, value) else m

/-- **Change the table at the end of a path.** Tables that are missing on the
way are made; `byKey` tells whether a dotted key leads the way or a header. The
change is given the origin of the table. Nothing comes of a path that leads
through something that is no table, or by a dotted key through a table with a
header. -/
def descend (byKey : Bool) (change : TableOrigin → Members → Option Members) :
    List String → TableOrigin → Members → Option Members
  | [], origin, members => change origin members
  | key :: path, _, members =>
    match members.lookup key with
    | none => do
      let origin := if byKey then TableOrigin.dotted else .implied
      let inner ← descend byKey change path origin []
      return members ++ [(key, table origin inner)]
    | some (table origin inner) =>
      if byKey ∧ origin = .header then none
      else do
        let inner ← descend byKey change path origin inner
        return replaceMember key (table origin inner) members
    | some (tables elements) => do
      let last ← elements.getLast?
      let last ← descend byKey change path .header last
      return replaceMember key (tables (elements.dropLast ++ [last])) members
    | some _ => none

/-- **Add a value**, under a path of keys and a last key. A last key with a
path before it belongs to a table made by dotted keys, and one without a path
to a table that is not. No key is given twice. -/
def addValue (path : List String) (key : String) (value : Toml) (origin : TableOrigin)
    (members : Members) : Option Members :=
  descend true (fun origin members =>
    if decide (origin = .dotted) = path.isEmpty then none
    else if (members.lookup key).isSome then none
    else some (members ++ [(key, value)])) path origin members

/-- **The header of a table**: it is made, or completed if it was implied. -/
def addTable (path : List String) (key : String) (members : Members) : Option Members :=
  descend false (fun _ members =>
    match members.lookup key with
    | none => some (members ++ [(key, table .header [])])
    | some (table .implied inner) => some (replaceMember key (table .header inner) members)
    | some _ => none) path .header members

/-- **The header of one more table of an array.** -/
def addElement (path : List String) (key : String) (members : Members) : Option Members :=
  descend false (fun _ members =>
    match members.lookup key with
    | none => some (members ++ [(key, tables [[]])])
    | some (tables elements) => some (replaceMember key (tables (elements ++ [[]])) members)
    | some _ => none) path .header members

/-- **Change the table that was last given a header.** -/
def changeCurrent (change : Members → Option Members) : List String → Members → Option Members
  | [], members => change members
  | key :: path, members =>
    match members.lookup key with
    | some (table origin inner) => do
      return replaceMember key (table origin (← changeCurrent change path inner)) members
    | some (tables elements) => do
      let last ← changeCurrent change path (← elements.getLast?)
      return replaceMember key (tables (elements.dropLast ++ [last])) members
    | _ => none

end Toml

/-- **A line of a document that says something.** Keys are cut at their last
part. -/
inductive TomlStatement where
  /-- A value under a key. -/
  | value (path : List String) (key : String) (v : Toml)
  /-- The header of a table. -/
  | table (path : List String) (key : String)
  /-- The header of a table in an array. -/
  | element (path : List String) (key : String)

/-- **A document while it is read**: its table, and the path to the table that
values go to. -/
structure TomlDocument where
  /-- The members of the whole document. -/
  members : Toml.Members
  /-- The keys that lead to the current table. -/
  current : List String

namespace TomlDocument

/-- A document that says nothing. -/
def empty : TomlDocument := ⟨[], []⟩

/-- **One more statement.** -/
def add (d : TomlDocument) : TomlStatement → Option TomlDocument
  | .value path key v => do
    return { d with
      members := ← Toml.changeCurrent (Toml.addValue path key v .header) d.current d.members }
  | .table path key => do
    return ⟨← Toml.addTable path key d.members, path ++ [key]⟩
  | .element path key => do
    return ⟨← Toml.addElement path key d.members, path ++ [key]⟩

/-- **The table that statements make**, if they go together. -/
def ofStatements (statements : List TomlStatement) : Option Toml.Members :=
  (·.members) <$> statements.foldlM add empty

end TomlDocument

namespace Toml

/-- **The table in braces that pairs make**, if they go together. -/
def ofPairs (pairs : List (List String × String × Toml)) : Option Toml :=
  inlineTable <$>
    pairs.foldlM (fun members (path, key, v) => addValue path key v .header members) []

end Toml

end Offside
