import FixtureCheck.GraphQL.Literal
import FixtureCheck.GraphQL.Rule.Basic
import FixtureCheck.GraphQL.Spread

/-!
# Rules about variables

The variables of an operation have distinct names, each variable that is used is declared, each one declared is used,
and its type fits every place where it stands. The uses of an operation include those in the fragments that it reaches.
-/

namespace FixtureCheck.GraphQL

/-- A place where a variable stands. -/
structure VariableUse where
  name : String
  scope : Scope

/-- The uses of variables in a definition. -/
def usesIn (schema : Schema) (document : Document) (d : Definition) : List VariableUse :=
  let walk := outside (fun visit => visit.node matches .variableDefinition _)
    (definitionVisits schema document d).zipIdx
  walk.filterMap fun (visit, _) =>
    match visit.entering, visit.node with
    | true, .value (.variable name) => some ⟨name, visit.scope⟩
    | _, _ => none

/-- The uses of variables in an operation and the fragments it reaches. -/
def variableUses (schema : Schema) (document : Document) (o : Operation) : List VariableUse :=
  usesIn schema document (.operation o) ++
    (reachable document o.selections).flatMap fun f => usesIn schema document (.fragment f)

/-- Reports about operations, made when their walk ends. -/
def eachOperation (messages : Operation → List String) : List (Visit × Nat) → List Report :=
  eachExit fun visit =>
    match visit.node with
    | .definition (.operation o) => messages o
    | _ => []

/-- The variables of an operation have distinct names. -/
def uniqueVariableNames : Rule := fun _ _ => eachEntry fun visit =>
  match visit.node with
  | .definition (.operation o) =>
    (repeatedNames (o.variableDefinitions.map (·.name))).map fun name =>
      s!"There can be only one variable named '${name}'."
  | _ => []

/-- Variables that are used are declared. -/
def noUndefinedVariables : Rule := fun schema document => eachOperation fun o =>
  (variableUses schema document o).filterMap fun use =>
    if o.variableDefinitions.any (·.name == use.name) then none
    else some <| match o.name with
      | some name => s!"Variable '${use.name}' is not defined by operation '{name}'."
      | none => s!"Variable '${use.name}' is not defined."

/-- Variables that are declared are used. -/
def noUnusedVariables : Rule := fun schema document => eachOperation fun o =>
  let used := (variableUses schema document o).map (·.name)
  (o.variableDefinitions.filter (!used.contains ·.name)).map fun v =>
    match o.name with
    | some name => s!"Variable '${v.name}' is never used in operation '{name}'."
    | none => s!"Variable '${v.name}' is never used."

/-- Can a variable stand where a value of a type is expected? A default on either side takes the place of null. -/
def variableFits (schema : Schema) (v : VariableDefinition) (expected : TypeRef) (default? : Option Value) : Bool :=
  match expected with
  | .nonNull nullable =>
    if v.type.isNonNull then schema.isSubType v.type expected
    else (v.default?.any (!·.isNull) || default?.isSome) && schema.isSubType v.type nullable
  | _ => schema.isSubType v.type expected

/-- Is the place inside an input object of which exactly one field is given? -/
def oneOfAround? (schema : Schema) (scope : Scope) : Option String :=
  match scope.outerInput with
  | some (.named name) =>
    match schema.details? name with
    | some (.input _ true) => some name
    | _ => none
  | _ => none

/-- The types of variables fit the places where they stand. -/
def variablesInAllowedPosition : Rule := fun schema document => eachOperation fun o =>
  (variableUses schema document o).flatMap fun use =>
    match (o.variableDefinitions.filter (·.name == use.name)).getLast?, use.scope.input with
    | some v, some expected =>
      if (schema.type? v.type.base).isNone then []
      else
        (if variableFits schema v expected use.scope.default? then []
          else [s!"Variable '${v.name}' of type '{v.type.text}' used in position expecting type '{expected.text}'."]) ++
          match oneOfAround? schema use.scope with
          | some object =>
            if v.type.isNonNull then []
            else
              [s!"Variable '${v.name}' is of type '{v.type.text}' but must be non-nullable " ++
                s!"to be used for OneOf Input Object '{object}'."]
          | none => []
    | _, _ => []

end FixtureCheck.GraphQL
