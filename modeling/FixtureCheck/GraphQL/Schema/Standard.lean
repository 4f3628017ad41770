import FixtureCheck.GraphQL.Schema

/-!
# Standard types and directives

The scalar types and directives every schema may use, and the types that describe a schema.
-/

namespace FixtureCheck.GraphQL.Standard

/-- The names of the standard scalar types. -/
def scalarNames : List String := ["String", "Int", "Float", "Boolean", "ID"]

private def plain (name : String) (type : TypeRef) : OutputField := ⟨name, type, []⟩

private def withDeprecated (name : String) (type : TypeRef) : OutputField :=
  ⟨name, type, [⟨"includeDeprecated", .named "Boolean", some (.boolean false), false⟩]⟩

private def required (name : String) : TypeRef := .nonNull (.named name)

private def listOf (name : String) : TypeRef := .list (.nonNull (.named name))

/-- The object types that describe a schema. -/
def descriptionObjects : List NamedType := [
  ⟨"__Schema", .object [] [
    plain "description" (.named "String"), plain "types" (.nonNull (listOf "__Type")),
    plain "queryType" (required "__Type"), plain "mutationType" (.named "__Type"),
    plain "subscriptionType" (.named "__Type"), plain "directives" (.nonNull (listOf "__Directive"))]⟩,
  ⟨"__Directive", .object [] [
    plain "name" (required "String"), plain "description" (.named "String"), plain "isRepeatable" (required "Boolean"),
    plain "locations" (.nonNull (listOf "__DirectiveLocation")),
    withDeprecated "args" (.nonNull (listOf "__InputValue"))]⟩,
  ⟨"__Type", .object [] [
    plain "kind" (required "__TypeKind"), plain "name" (.named "String"), plain "description" (.named "String"),
    plain "specifiedByURL" (.named "String"), withDeprecated "fields" (listOf "__Field"),
    plain "interfaces" (listOf "__Type"), plain "possibleTypes" (listOf "__Type"),
    withDeprecated "enumValues" (listOf "__EnumValue"), withDeprecated "inputFields" (listOf "__InputValue"),
    plain "ofType" (.named "__Type"), plain "isOneOf" (.named "Boolean")]⟩,
  ⟨"__Field", .object [] [
    plain "name" (required "String"), plain "description" (.named "String"),
    withDeprecated "args" (.nonNull (listOf "__InputValue")), plain "type" (required "__Type"),
    plain "isDeprecated" (required "Boolean"), plain "deprecationReason" (.named "String")]⟩,
  ⟨"__InputValue", .object [] [
    plain "name" (required "String"), plain "description" (.named "String"), plain "type" (required "__Type"),
    plain "defaultValue" (.named "String"), plain "isDeprecated" (required "Boolean"),
    plain "deprecationReason" (.named "String")]⟩,
  ⟨"__EnumValue", .object [] [
    plain "name" (required "String"), plain "description" (.named "String"), plain "isDeprecated" (required "Boolean"),
    plain "deprecationReason" (.named "String")]⟩]

/-- The enum types that describe a schema. -/
def descriptionEnums : List NamedType := [
  ⟨"__DirectiveLocation", .enum directiveLocations⟩,
  ⟨"__TypeKind",
    .enum ["SCALAR", "OBJECT", "INTERFACE", "UNION", "ENUM", "INPUT_OBJECT", "LIST", "NON_NULL"]⟩]

/-- All types that no schema can define in its own way. -/
def types : List NamedType :=
  scalarNames.map (⟨·, .scalar⟩) ++ descriptionObjects ++ descriptionEnums

/-- The names of the types that describe a schema. -/
def descriptionNames : List String := (descriptionObjects ++ descriptionEnums).map (·.name)

/-- The standard type under a name. -/
def type? (name : String) : Option NamedType := types.find? (·.name == name)

private def condition : List InputValue := [⟨"if", required "Boolean", none, false⟩]

private def selectionPlaces : List String := ["FIELD", "FRAGMENT_SPREAD", "INLINE_FRAGMENT"]

/-- Keeps a selection only under a condition. -/
def includeIf : DirectiveType := ⟨"include", condition, false, selectionPlaces⟩

/-- Leaves a selection out under a condition. -/
def skipIf : DirectiveType := ⟨"skip", condition, false, selectionPlaces⟩

/-- Marks fields, arguments and enum values that should no longer be used. -/
def deprecated : DirectiveType :=
  ⟨"deprecated", [⟨"reason", .named "String", some (.string "No longer supported" false), false⟩], false,
    ["FIELD_DEFINITION", "ARGUMENT_DEFINITION", "INPUT_FIELD_DEFINITION", "ENUM_VALUE"]⟩

/-- Names the specification of a scalar type. -/
def specifiedBy : DirectiveType := ⟨"specifiedBy", [⟨"url", required "String", none, false⟩], false, ["SCALAR"]⟩

/-- Marks input objects of which exactly one field is given. -/
def oneOf : DirectiveType := ⟨"oneOf", [], false, ["INPUT_OBJECT"]⟩

/-- The directives every schema document may use. -/
def directives : List DirectiveType := [includeIf, skipIf, deprecated, specifiedBy, oneOf]

end FixtureCheck.GraphQL.Standard
