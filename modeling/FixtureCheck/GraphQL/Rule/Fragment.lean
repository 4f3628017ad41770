import FixtureCheck.GraphQL.Rule.Basic
import FixtureCheck.GraphQL.Spread

/-!
# Rules about fragments

Fragments have distinct names, spreads name fragments, every fragment is reached from an operation, and no fragment
reaches itself. `cycles` searches from one fragment after the other and enters each fragment once.
-/

namespace FixtureCheck.GraphQL

/-- Fragments have distinct names. -/
def uniqueFragmentNames : Rule := fun _ _ =>
  repeats (fun visit => match visit.node with
    | .definition (.fragment f) => some f.name
    | _ => none)
    fun name => s!"There can be only one fragment named '{name}'."

/-- Spreads name fragments. -/
def knownFragmentNames : Rule := fun _ document => eachEntry fun visit =>
  match visit.node with
  | .spread name _ => if (fragment? document name).isSome then [] else [s!"Unknown fragment '{name}'."]
  | _ => []

/-- Every fragment is reached from an operation. -/
def noUnusedFragments : Rule := fun _ document => eachExit fun visit =>
  match visit.node with
  | .document _ =>
    let used := (operations document).flatMap fun o => (reachable document o.selections).map (·.name)
    ((fragments document).filter (!used.contains ·.name)).map fun f => s!"Fragment '{f.name}' is never used."
  | _ => []

/-! ## Cycles -/

/-- The message about a fragment that is spread within itself, through others. -/
def cycleMessage (name : String) (via : List String) : String :=
  s!"Cannot spread fragment '{name}' within itself" ++
    (if via.isEmpty then "" else " via " ++ ", ".intercalate (via.map fun v => s!"'{v}'")) ++ "."

/-- The messages on the cycles met from a fragment, and the fragments entered. `path` leads to the fragment: the names
of the fragments entered and not left, the last one first. -/
def cycles (document : Document) : Nat → (path : List String) → Fragment → (entered : List String) →
    List String × List String
  | 0, _, _, entered => ([], entered)
  | n + 1, path, fragment, entered =>
    if entered.contains fragment.name then ([], entered)
    else
      let path := fragment.name :: path
      let step : List String × List String → String → List String × List String := fun (messages, entered) name =>
        if path.contains name then
          (messages ++ [cycleMessage name (path.takeWhile (· != name)).reverse], entered)
        else
          match fragment? document name with
          | none => (messages, entered)
          | some next =>
            let (more, entered) := cycles document n path next entered
            (messages ++ more, entered)
      (spreadNames fragment.selections).foldl step ([], fragment.name :: entered)

/-- The messages on the cycles met from fragments searched one after the other. -/
def allCycles (document : Document) (entered : List String) : List (Fragment × Nat) → List Report
  | [] => []
  | (f, time) :: rest =>
    let (messages, entered) := cycles document ((fragments document).length + 1) [] f entered
    messages.map (⟨time, ·⟩) ++ allCycles document entered rest

/-- No fragment reaches itself. -/
def noFragmentCycles : Rule := fun _ document walk =>
  allCycles document [] <| walk.filterMap fun (visit, time) =>
    match visit.entering, visit.node with
    | true, .definition (.fragment f) => some (f, time)
    | _, _ => none

end FixtureCheck.GraphQL
