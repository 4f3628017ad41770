import FixtureCheck.GraphQL.Literal
import FixtureCheck.GraphQL.Rule.Basic
import FixtureCheck.Text.Suggestion

/-!
# Rules about values

Literals are values of the types that are expected of them, and an object literal gives a field once. A list or object
where none is expected is looked at as a whole, so what is inside it is not visited.
-/

namespace FixtureCheck.GraphQL

open Text

/-- Is a list expected around the place? -/
def expectsList (scope : Scope) : Bool :=
  match scope.outerInput.map TypeRef.nullable with
  | some (.list _) => true
  | _ => false

/-- The input object type that is expected at a place. -/
def expectedObject? (schema : Schema) (input : Option TypeRef) : Option (String × List InputValue × Bool) :=
  input.bind fun t =>
    match schema.details? t.base with
    | some (.input fields isOneOf) => some (t.base, fields, isOneOf)
    | _ => none

/-- The message about a literal that stands for a value of a type. -/
def literalMessages (schema : Schema) (input : Option TypeRef) (literal : Value) : List String :=
  match input with
  | none => []
  | some type =>
    let misfit? := match schema.details? type.base with
      | some .scalar => some ((scalarMisfit? type.base literal).map LeafMisfit.message)
      | some (.enum members) => some ((enumMisfit? type.base members literal).map LeafMisfit.message)
      | _ => none
    match misfit? with
    | some message? => message?.toList
    | none => [s!"Expected value of type '{type.text}', found {printValue literal}."]

/-- The messages about the fields that an object literal lacks, or has too many of. -/
def objectMessages (type : String) (fields : List InputValue) (isOneOf : Bool) (entries : List (String × Value)) :
    List String :=
  let lacking := fields.filter fun f => f.isRequired && !entries.any (·.1 == f.name)
  lacking.map (fun f => s!"Field '{type}.{f.name}' of required type '{f.type.text}' was not provided.") ++
    if isOneOf then
      match (entries.map (·.1)).eraseDups with
      | [name] =>
        if ((entries.filter (·.1 == name)).getLast?.map (·.2.isNull)).getD true then
          [s!"Field '{type}.{name}' must be non-null."]
        else []
      | _ => [s!"OneOf Input Object '{type}' must specify exactly one key."]
    else []

/-- Is a list or object where none is expected? -/
def isMisplaced (schema : Schema) (visit : Visit) : Bool :=
  match visit.node with
  | .value (.list _) => !expectsList visit.scope
  | .value (.object _) => (expectedObject? schema visit.scope.input).isNone
  | _ => false

/-- Literals are values of the types that are expected of them. -/
def valuesOfCorrectType : Rule := fun schema _ walk =>
  eachEntry (fun visit =>
    match visit.node with
    | .value (.variable _) => []
    | .value .null =>
      match visit.scope.input with
      | some (.nonNull t) => [s!"Expected value of type '{(TypeRef.nonNull t).text}', found null."]
      | _ => []
    | .value (.list items) =>
      if expectsList visit.scope then [] else literalMessages schema visit.scope.input (.list items)
    | .value (.object entries) =>
      match expectedObject? schema visit.scope.input with
      | some (type, fields, isOneOf) => objectMessages type fields isOneOf entries
      | none => literalMessages schema visit.scope.input (.object entries)
    | .value literal => literalMessages schema visit.scope.input literal
    | .objectField name _ =>
      match expectedObject? schema visit.scope.outerInput, visit.scope.input with
      | some (type, fields, _), none =>
        [s!"Field '{name}' is not defined by type '{type}'." ++ didYouMean (suggestions name (fields.map (·.name)))]
      | _, _ => []
    | _ => []) (outside (isMisplaced schema) walk)

/-- An object literal gives a field once. -/
def uniqueInputFieldNames : Rule := fun _ _ walk =>
  go [] walk
where
  /-- `around` holds the field names met in the object literals around the place, the innermost first. -/
  go (around : List (List String)) : List (Visit × Nat) → List Report
    | [] => []
    | (visit, time) :: rest =>
      match visit.entering, visit.node, around with
      | true, .value (.object _), _ => go ([] :: around) rest
      | false, .value (.object _), _ :: outer => go outer rest
      | true, .objectField name _, names :: outer =>
        if names.contains name then ⟨time, s!"There can be only one input field named '{name}'."⟩ :: go around rest
        else go ((name :: names) :: outer) rest
      | _, _, _ => go around rest

end FixtureCheck.GraphQL
