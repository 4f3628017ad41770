import FixtureCheck.GraphQL.Spread

/-!
# Inlining fragments

`inline` replaces every spread by an inline fragment with the spread's directives and the fragment's type condition and
selections, and leaves the fragment definitions out. The selections of a fragment are inlined in turn. A spread of a
fragment that does not exist is an error, the first one in reading order; so is a fragment that is spread within itself.
-/

namespace FixtureCheck.GraphQL

/-- Why fragments cannot be inlined. -/
inductive InliningError where
  | unknownFragment (name : String)
  | endless (name : String)
  deriving DecidableEq, Repr

/-- The message about an error. -/
def InliningError.message : InliningError → String
  | unknownFragment name => s!"Fragment definition not found: {name}"
  | endless name => s!"Fragment spread within itself: {name}"

mutual

/-- A selection with its spreads replaced, through at most `n` fragments within each other. -/
def inlineSelection (document : Document) (n : Nat) (selection : Selection) : Except InliningError Selection :=
  match selection with
  | .field f selections => return .field f (← inlineSelections document n selections)
  | .inline condition directives selections =>
    return .inline condition directives (← inlineSelections document n selections)
  | .spread name directives =>
    match fragment? document name, n with
    | none, _ => .error (.unknownFragment name)
    | some _, 0 => .error (.endless name)
    | some f, n + 1 => return .inline (some f.condition) directives (← inlineSelections document n f.selections)
termination_by (n, sizeOf selection)

/-- Selections with their spreads replaced. -/
def inlineSelections (document : Document) (n : Nat) (selections : List Selection) :
    Except InliningError (List Selection) :=
  match selections with
  | [] => return []
  | selection :: rest => do
    let selection ← inlineSelection document n selection
    return selection :: (← inlineSelections document n rest)
termination_by (n, sizeOf selections)

end

/-- A definition with its spreads replaced; none for the definition of a fragment. -/
def inlineDefinition (document : Document) : Definition → Except InliningError (Option Definition)
  | .operation o => do
    let selections ← inlineSelections document (fragments document).length o.selections
    return some (.operation { o with selections })
  | .fragment _ => return none
  | d => return some d

/-- A document with its spreads replaced. -/
def inline (document : Document) : Except InliningError Document :=
  document.filterMapM (inlineDefinition document)

end FixtureCheck.GraphQL
