import FixtureCheck.GraphQL.Rule.Basic
import FixtureCheck.GraphQL.Spread

/-!
# The rule about the depth of questions about the schema

Lists about the schema may be nested two deep. The search goes through spreads, but not twice through a fragment on one
path.
-/

namespace FixtureCheck.GraphQL

/-- The fields about the schema whose nesting is limited. -/
def limitedFields : List String := ["fields", "interfaces", "possibleTypes", "inputFields"]

mutual

/-- Do selections below `depth` limited fields nest such fields three deep? `path` holds the fragments entered. -/
def isTooDeep (document : Document) (n : Nat) (path : List String) (depth : Nat) (selections : List Selection) : Bool :=
  match n with
  | 0 => false
  | n + 1 => selections.any (isTooDeepAt document n path depth)
termination_by (n, 0)

/-- Does a selection below `depth` limited fields nest such fields three deep? -/
def isTooDeepAt (document : Document) (n : Nat) (path : List String) (depth : Nat) (selection : Selection) : Bool :=
  match selection with
  | .spread name _ =>
    if path.contains name then false
    else
      match fragment? document name with
      | some f => isTooDeep document n (name :: path) depth f.selections
      | none => false
  | .inline _ _ inner => inner.attach.any fun ⟨s, _⟩ => isTooDeepAt document n path depth s
  | .field f inner =>
    let depth := if limitedFields.contains f.name then depth + 1 else depth
    depth ≥ 3 || inner.attach.any fun ⟨s, _⟩ => isTooDeepAt document n path depth s
termination_by (n, sizeOf selection)

end

/-- Is the part a question about the schema that goes too deep? -/
def asksTooDeep (document : Document) (visit : Visit) : Bool :=
  match visit.node with
  | .field f selections =>
    (f.name == "__schema" || f.name == "__type") &&
      isTooDeepAt document ((fragments document).length + 1) [] 0 (.field f selections)
  | _ => false

/-- Questions about the schema do not go too deep. -/
def maxIntrospectionDepth : Rule := fun _ document walk =>
  eachEntry (fun visit => if asksTooDeep document visit then ["Maximum introspection depth exceeded"] else [])
    (outside (asksTooDeep document) walk)

end FixtureCheck.GraphQL
