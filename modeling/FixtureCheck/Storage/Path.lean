/-!
# File paths

A path is a root and the names below it. `Path.ofText` leaves out empty names and single dots, `Path.text` writes the
names with slashes between them and a lone dot for no names at all. Two slashes in front are a root of their own; any
other number of them is one.
-/

namespace FixtureCheck.Storage

/-- Where a path starts. -/
inductive Root where
  /-- The current folder. -/
  | here
  | single
  | double
  deriving DecidableEq, Repr

/-- The slashes of a root. -/
def Root.text : Root → String
  | here => ""
  | single => "/"
  | double => "//"

/-- A path to a file or folder. -/
structure Path where
  root : Root
  names : List String
  deriving DecidableEq, Repr

/-- The pieces of a text between slashes. -/
def pieces : List Char → List (List Char)
  | [] => [[]]
  | c :: cs =>
    if c == '/' then [] :: pieces cs
    else
      match pieces cs with
      | piece :: rest => (c :: piece) :: rest
      | [] => [[c]]

/-- The root that a text starts with. -/
def rootOf (cs : List Char) : Root :=
  match (cs.takeWhile (· == '/')).length with
  | 0 => .here
  | 2 => .double
  | _ => .single

namespace Path

/-- The path that a text names. -/
def ofText (text : String) : Path :=
  let names := (pieces text.toList).filter fun piece => piece ≠ [] ∧ piece ≠ ['.']
  ⟨rootOf text.toList, names.map String.ofList⟩

/-- The text of a path. -/
def text (p : Path) : String :=
  match p.root, p.names with
  | .here, [] => "."
  | root, names => root.text ++ "/".intercalate names

/-- The path to the folder that holds a file; a path without names is its own. -/
def parent (p : Path) : Path := { p with names := p.names.dropLast }

/-- The path that starts from another one, unless it has a root. -/
def under (p base : Path) : Path :=
  match p.root with
  | .here => { base with names := base.names ++ p.names }
  | _ => p

/-- The path made of several, each one starting from those before it. -/
def join (paths : List Path) : Path := paths.foldl (fun base p => p.under base) ⟨.here, []⟩

/-- The last name; empty if there is none. -/
def name (p : Path) : String := p.names.getLastD ""

/-- The end of the last name from its last dot on, unless the dot is its first or last character. -/
def suffix (p : Path) : String :=
  let name := p.name.toList
  let after := name.reverse.takeWhile (· ≠ '.')
  if after.isEmpty || name.length ≤ after.length + 1 then "" else String.ofList ('.' :: after.reverse)

/-- The path with a tilde in front replaced by the home folder; none for a tilde with a user's name. -/
def expand (p home : Path) : Option Path :=
  match p.root, p.names with
  | .here, first :: rest =>
    if first == "~" then some { home with names := home.names ++ rest }
    else if first.startsWith "~" then none
    else some p
  | _, _ => some p

end Path

end FixtureCheck.Storage
