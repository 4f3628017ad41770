import FixtureCheck.GraphQL.Rule.Argument
import FixtureCheck.GraphQL.Rule.Definition
import FixtureCheck.GraphQL.Rule.Depth
import FixtureCheck.GraphQL.Rule.Directive
import FixtureCheck.GraphQL.Rule.Fragment
import FixtureCheck.GraphQL.Rule.Operation
import FixtureCheck.GraphQL.Rule.Overlap
import FixtureCheck.GraphQL.Rule.Type
import FixtureCheck.GraphQL.Rule.Value
import FixtureCheck.GraphQL.Rule.Variable
import FixtureCheck.GraphQL.Schema.Validity

/-!
# Valid documents

`queryErrors` applies the rules for queries under a schema and gives up after a hundred errors. `definitionErrors`
applies the rules for documents that define a type system. `validate` asks for a valid schema first.
-/

namespace FixtureCheck.GraphQL

/-- The rules for queries. -/
def queryRules : List Rule := [
  executableDefinitions, uniqueOperationNames, loneAnonymousOperation, singleFieldSubscriptions, knownTypeNames,
  fragmentsOnCompositeTypes, variablesAreInputTypes, scalarLeafs, fieldsOnCorrectType, uniqueFragmentNames,
  knownFragmentNames, noUnusedFragments, possibleFragmentSpreads, noFragmentCycles, uniqueVariableNames,
  noUndefinedVariables, noUnusedVariables, knownDirectives, uniqueDirectivesPerLocation, knownArgumentNames,
  uniqueArgumentNames, valuesOfCorrectType, providedRequiredArguments, variablesInAllowedPosition,
  overlappingFieldsCanBeMerged, uniqueInputFieldNames, maxIntrospectionDepth]

/-- The rules for type systems. -/
def definitionRules : List Rule := [
  loneSchemaDefinition, uniqueOperationTypes, uniqueTypeNames, uniqueEnumValueNames, uniqueFieldDefinitionNames,
  uniqueArgumentDefinitionNames, uniqueDirectiveNames, knownTypeNames, knownDirectives, uniqueDirectivesPerLocation,
  possibleTypeExtensions, knownArgumentNamesOnDirectives, uniqueArgumentNames, uniqueInputFieldNames,
  providedRequiredArgumentsOnDirectives]

/-- The number of errors after which the check of a query gives up. -/
def errorLimit : Nat := 100

/-- The errors, cut after the limit. -/
def limited (messages : List String) : List String :=
  if messages.length > errorLimit then
    messages.take errorLimit ++ ["Too many validation errors, error limit reached. Validation aborted."]
  else messages

/-- The errors of a query under a schema. The check fails where it meets a subscription whose fields cannot be told,
unless it has given up before. -/
def queryErrors (schema : Schema) (document : Document) : Except ArgumentMisuse (List String) :=
  let reports := findings queryRules schema document
  match subscriptionMisuse? schema document with
  | none => .ok (limited (reports.map (·.message)))
  | some (time, misuse) =>
    let before := reports.filter (·.time < time)
    if before.length > errorLimit then .ok (limited (before.map (·.message))) else .error misuse

/-- Why a query cannot be checked. -/
inductive ValidationFailure where
  | invalidSchema (cause : SchemaError)
  | misuse (cause : ArgumentMisuse)

/-- The message about a failure, with the place in the text of the query that it is about. -/
def ValidationFailure.message (source : String) : ValidationFailure → String
  | invalidSchema cause => cause.message
  | misuse cause => (cause.inText source.toList).fullText

/-- The errors of a query under a schema, which has to be valid. -/
def validate (schema : Schema) (document : Document) : Except ValidationFailure (List String) := do
  schema.checkValid.mapError .invalidSchema
  (queryErrors schema document).mapError .misuse

/-- The schema of a document that defines its own: there are the standard directives and nothing else. -/
def emptySchema : Schema := ⟨[], none, none, none, Standard.directives⟩

/-- The errors of a document that defines a type system. -/
def definitionErrors (document : Document) : List String :=
  (findings definitionRules emptySchema document).map (·.message)

end FixtureCheck.GraphQL
