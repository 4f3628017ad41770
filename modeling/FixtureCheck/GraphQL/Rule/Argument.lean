import FixtureCheck.GraphQL.Rule.Directive
import FixtureCheck.Text.Suggestion

/-!
# Rules about arguments

The arguments of fields and directives are known, have distinct names, and the required ones are given. The rules on
directives apply to type systems, too.
-/

namespace FixtureCheck.GraphQL

open Text

/-- The names of the arguments of a directive, if the directive is known. -/
def directiveArguments? (schema : Schema) (document : Document) (name : String) : Option (List String) :=
  match definedDirective? document name with
  | some d => some (d.arguments.map (·.name))
  | none => (schemaDirective? schema name).map fun d => d.arguments.map (·.name)

/-- The arguments of directives are known. -/
def knownArgumentNamesOnDirectives : Rule := fun schema document => eachEntry fun visit =>
  match visit.node with
  | .directive d =>
    match directiveArguments? schema document d.name with
    | none => []
    | some known =>
      (d.arguments.filter (!known.contains ·.name)).map fun a =>
        s!"Unknown argument '{a.name}' on directive '@{d.name}'." ++ didYouMean (suggestions a.name known)
  | _ => []

/-- The arguments of fields are known. -/
def knownArgumentNamesOnFields : Rule := fun _ _ => eachEntry fun visit =>
  match visit.node, visit.parent, visit.scope.argument, visit.scope.field, visit.scope.parent with
  | .argument a, .field f _, none, some definition, some parent =>
    [s!"Unknown argument '{a.name}' on field '{parent}.{f.name}'." ++
      didYouMean (suggestions a.name (definition.arguments.map (·.name)))]
  | _, _, _, _, _ => []

/-- The arguments of fields and directives are known. -/
def knownArgumentNames : Rule := fun schema document walk =>
  knownArgumentNamesOnDirectives schema document walk ++ knownArgumentNamesOnFields schema document walk

/-- The arguments of a field or directive have distinct names. -/
def uniqueArgumentNames : Rule := fun _ _ => eachEntry fun visit =>
  let messages (arguments : List Argument) : List String :=
    (repeatedNames (arguments.map (·.name))).map fun name => s!"There can be only one argument named '{name}'."
  match visit.node with
  | .field f _ => messages f.arguments
  | .directive d => messages d.arguments
  | _ => []

/-- The required arguments of a directive, with their types. -/
def requiredDirectiveArguments (schema : Schema) (document : Document) (name : String) : List (String × TypeRef) :=
  match definedDirective? document name with
  | some d => (d.arguments.filter fun a => a.type.isNonNull && a.default?.isNone).map fun a => (a.name, a.type)
  | none =>
    match schemaDirective? schema name with
    | some d => (d.arguments.filter (·.isRequired)).map fun a => (a.name, a.type)
    | none => []

/-- The required arguments of directives are given. -/
def providedRequiredArgumentsOnDirectives : Rule := fun schema document => eachExit fun visit =>
  match visit.node with
  | .directive d =>
    (requiredDirectiveArguments schema document d.name).filterMap fun (name, type) =>
      if d.arguments.any (·.name == name) then none
      else some <|
        s!"Directive '@{d.name}' argument '{name}' of type '{type.text}' is required, but it was not provided."
  | _ => []

/-- The required arguments of fields are given. -/
def providedRequiredArgumentsOnFields : Rule := fun _ _ => eachExit fun visit =>
  match visit.node, visit.scope.field with
  | .field f _, some definition =>
    definition.arguments.filterMap fun a =>
      if !a.isRequired || f.arguments.any (·.name == a.name) then none
      else some <|
        s!"Field '{f.name}' argument '{a.name}' of type '{a.type.text}' is required, but it was not provided."
  | _, _ => []

/-- The required arguments of fields and directives are given. -/
def providedRequiredArguments : Rule := fun schema document walk =>
  providedRequiredArgumentsOnDirectives schema document walk ++ providedRequiredArgumentsOnFields schema document walk

end FixtureCheck.GraphQL
