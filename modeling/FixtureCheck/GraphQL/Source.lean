/-!
# Places in GraphQL texts

A place is an offset in characters. `location` turns it into a line and a column, both counted from one, and `excerpt`
shows it: the line with its neighbours and a mark below the column, or, for a line over 120 characters, pieces of 80.

`Fault` is what a reader of GraphQL texts reports: a message with the places it is about.
-/

namespace FixtureCheck.GraphQL

/-- The lines of a text; a line ends at a newline, a carriage return or both together. -/
def splitLines (cs : List Char) : List (List Char) :=
  go [] cs
where
  /-- `line` holds the current line in reverse. -/
  go (line : List Char) : List Char → List (List Char)
    | [] => [line.reverse]
    | '\r' :: '\n' :: rest => line.reverse :: go [] rest
    | '\n' :: rest => line.reverse :: go [] rest
    | '\r' :: rest => line.reverse :: go [] rest
    | c :: rest => go (c :: line) rest

/-- The line and the column of an offset. -/
def location (source : List Char) (offset : Nat) : Nat × Nat :=
  go 1 0 0 source
where
  /-- `start` is the offset at which line `line` begins, `here` the offset of the characters left. -/
  go (line start here : Nat) : List Char → Nat × Nat
    | [] => (line, offset + 1 - start)
    | c :: rest =>
      if offset ≤ here then (line, offset + 1 - start)
      else
        match c, rest with
        | '\r', '\n' :: rest => go (line + 1) (here + 2) (here + 2) rest
        | '\n', rest => go (line + 1) (here + 1) (here + 1) rest
        | '\r', rest => go (line + 1) (here + 1) (here + 1) rest
        | _, rest => go line start (here + 1) rest

/-- Consecutive pieces of at most `n + 1` characters. -/
def pieces (n : Nat) (cs : List Char) : List (List Char) :=
  match cs with
  | [] => []
  | c :: rest => (c :: rest.take n) :: pieces n (rest.drop n)
termination_by cs.length
decreasing_by simp only [List.length_drop, List.length_cons]; omega

/-- Text flush right in a field of `width` characters. -/
def padLeft (width : Nat) (s : List Char) : List Char := List.replicate (width - s.length) ' ' ++ s

/-- Lines behind right-aligned labels. -/
def labelled (lines : List (List Char × List Char)) : List Char :=
  let width := (lines.map (·.1.length)).foldl max 0
  ['\n'].intercalate <| lines.map fun (label, line) =>
    padLeft width label ++ if line.isEmpty then [] else ' ' :: line

/-- A line number in front of a bar. -/
def lineLabel (n : Nat) : List Char := Nat.toDigits 10 n ++ [' ', '|']

/-- The place in its surroundings, headed by its line and column. -/
def excerpt (source : List Char) (offset : Nat) : String :=
  let (line, column) := location source offset
  let lines := splitLines source
  let here := lines.getD (line - 1) []
  let shown :=
    if here.length > 120 then
      let parts := pieces 79 here
      let i := column / 80
      [(lineLabel line, parts.headD [])] ++
        ((parts.drop 1).take i).map (fun part => (['|'], part)) ++
        [(['|'], padLeft (column % 80) ['^'])] ++
        (parts.drop (i + 1)).head?.toList.map (fun part => (['|'], part))
    else
      (if line > 1 then [(lineLabel (line - 1), lines.getD (line - 2) [])] else []) ++
        [(lineLabel line, here), (['|'], padLeft column ['^'])] ++
        (lines.drop line).head?.toList.map (fun next => (lineLabel (line + 1), next))
  s!"GraphQL request:{line}:{column}\n" ++ String.ofList (labelled shown)

/-- A message about places in a text. -/
structure Fault where
  /-- Is the text not even well formed? -/
  isSyntax : Bool
  message : String
  source : List Char
  offsets : List Nat
  deriving Repr, Inhabited, DecidableEq

namespace Fault

/-- The message for a malformed text. -/
def malformed (source : List Char) (offset : Nat) (description : String) : Fault :=
  ⟨true, "Syntax Error: " ++ description, source, [offset]⟩

/-- A message about no place in particular. -/
def plain (message : String) : Fault := ⟨false, message, [], []⟩

/-- The lines and columns of the places. -/
def locations (fault : Fault) : List (Nat × Nat) := fault.offsets.map (location fault.source)

/-- The message followed by the places in their surroundings. -/
def fullText (fault : Fault) : String :=
  fault.message ++ String.join (fault.offsets.map fun offset => "\n\n" ++ excerpt fault.source offset)

end Fault

end FixtureCheck.GraphQL
