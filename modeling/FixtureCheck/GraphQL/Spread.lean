import FixtureCheck.GraphQL.Syntax

/-!
# Spreads and the fragments they reach

`spreadNames` lists the fragments a selection set spreads: its own spreads first, then those of the selection sets
inside it, the last one first. `reachable` follows the spreads from fragment to fragment. Of two fragments with one name
the last counts.
-/

namespace FixtureCheck.GraphQL

/-- The fragment a spread refers to. -/
def fragment? (document : Document) (name : String) : Option Fragment :=
  (fragments document).reverse.find? (·.name == name)

/-- The spreads directly in a selection set. -/
def directSpreads (selections : List Selection) : List String :=
  selections.filterMap fun
    | .spread name _ => some name
    | _ => none

mutual

/-- The spreads in the selection sets inside a selection. -/
def spreadsBelow : Selection → List String
  | .field _ selections | .inline _ _ selections => directSpreads selections ++ innerSpreads selections
  | .spread .. => []

/-- The spreads in the selection sets inside selections in a row, from the last selection to the first. -/
def innerSpreads : List Selection → List String
  | [] => []
  | selection :: rest => innerSpreads rest ++ spreadsBelow selection

end

/-- The fragments a selection set spreads, at any depth. -/
def spreadNames (selections : List Selection) : List String := directSpreads selections ++ innerSpreads selections

/-- What a search through fragments has found. -/
structure Reach where
  /-- The names met so far. -/
  names : List String := []
  /-- The fragments found so far, in order. -/
  found : List Fragment := []
  /-- The selection sets still to be looked at, the next one first. -/
  pending : List (List Selection) := []

/-- Takes note of a spread. -/
def Reach.meet (document : Document) (reach : Reach) (name : String) : Reach :=
  if reach.names.contains name then reach
  else
    match fragment? document name with
    | none => { reach with names := name :: reach.names }
    | some f => ⟨name :: reach.names, reach.found ++ [f], f.selections :: reach.pending⟩

/-- The fragments that a selection set reaches through spreads, in the order in which a search finds them. -/
def reachable (document : Document) (selections : List Selection) : List Fragment :=
  go ((fragments document).length + 1) { pending := [selections] }
where
  /-- Looks at no more than `n` selection sets: each fragment is looked at once. -/
  go : Nat → Reach → List Fragment
    | 0, reach => reach.found
    | n + 1, reach =>
      match reach.pending with
      | [] => reach.found
      | set :: rest => go n ((spreadNames set).foldl (Reach.meet document) { reach with pending := rest })

end FixtureCheck.GraphQL
