import FixtureCheck.GraphQL.Syntax
import FixtureCheck.NameSet

/-!
# Schemas

A schema is a list of named types with up to three root types and the directives it knows. Types refer to each other by
name; `Schema.type?` looks one up, and the predicates on names (`isComposite`, `isInputType`, …) follow from it.
`Schema.possibleTypes` is the set of object types a value of a type can have, `Schema.fieldOf?` the field a selection
on a type refers to.
-/

namespace FixtureCheck.GraphQL

/-- An argument or input field of a schema; `default?` is its default, when there is one that fits the type. -/
structure InputValue where
  name : String
  type : TypeRef
  default? : Option Value
  isDeprecated : Bool
  deriving Repr, Inhabited

/-- Has a value to be given? -/
def InputValue.isRequired (v : InputValue) : Bool := v.type.isNonNull && v.default?.isNone

/-- A field of an object or interface type. -/
structure OutputField where
  name : String
  type : TypeRef
  arguments : List InputValue
  deriving Repr, Inhabited

/-- The argument of a field under a name. -/
def OutputField.argument? (f : OutputField) (name : String) : Option InputValue := f.arguments.find? (·.name == name)

/-- What a named type is. -/
inductive TypeDetails where
  | scalar
  | object (interfaces : List String) (fields : List OutputField)
  | interface (interfaces : List String) (fields : List OutputField)
  | union (members : List String)
  | enum (values : List String)
  | input (fields : List InputValue) (isOneOf : Bool)
  deriving Repr, Inhabited

/-- A type with its name. -/
structure NamedType where
  name : String
  details : TypeDetails
  deriving Repr, Inhabited

/-- A directive of a schema. -/
structure DirectiveType where
  name : String
  arguments : List InputValue
  isRepeatable : Bool
  locations : List String
  deriving Repr, Inhabited

/-- A schema. -/
structure Schema where
  types : List NamedType
  query : Option String
  mutation : Option String
  subscription : Option String
  directives : List DirectiveType
  deriving Repr, Inhabited

/-! ## Kinds of types -/

namespace TypeDetails

/-- Can input values have the type? -/
def isInput : TypeDetails → Bool
  | scalar | enum _ | input .. => true
  | _ => false

/-- Can fields have the type? -/
def isOutput : TypeDetails → Bool
  | input .. => false
  | _ => true

/-- Does the type have no parts? -/
def isLeaf : TypeDetails → Bool
  | scalar | enum _ => true
  | _ => false

/-- Is it an object type? -/
def isObject : TypeDetails → Bool
  | object .. => true
  | _ => false

/-- Is it an interface type? -/
def isInterface : TypeDetails → Bool
  | interface .. => true
  | _ => false

/-- Does the type stand for several object types? -/
def isAbstract : TypeDetails → Bool
  | interface .. | union _ => true
  | _ => false

/-- Do selections apply to values of the type? -/
def isComposite : TypeDetails → Bool
  | object .. | interface .. | union _ => true
  | _ => false

/-- The fields of an object or interface type. -/
def fields : TypeDetails → List OutputField
  | object _ fields | interface _ fields => fields
  | _ => []

/-- The interfaces that an object or interface type implements. -/
def interfaces : TypeDetails → List String
  | object interfaces _ | interface interfaces _ => interfaces
  | _ => []

/-- The fields of an input object type. -/
def inputFields : TypeDetails → List InputValue
  | input fields _ => fields
  | _ => []

end TypeDetails

namespace Schema

/-- The type under a name. -/
def type? (schema : Schema) (name : String) : Option NamedType := schema.types.find? (·.name == name)

/-- The details of the type under a name. -/
def details? (schema : Schema) (name : String) : Option TypeDetails := (schema.type? name).map (·.details)

/-- Does the type under a name pass a test? -/
def typeIs (schema : Schema) (test : TypeDetails → Bool) (name : String) : Bool := (schema.details? name).any test

/-- Can input values have the type? -/
def isInputType (schema : Schema) (t : TypeRef) : Bool := schema.typeIs (·.isInput) t.base

/-- Can fields have the type? -/
def isOutputType (schema : Schema) (t : TypeRef) : Bool := schema.typeIs (·.isOutput) t.base

/-- Do selections apply to values of the type? -/
def isComposite (schema : Schema) (name : String) : Bool := schema.typeIs (·.isComposite) name

/-- Does the type stand for several object types? -/
def isAbstract (schema : Schema) (name : String) : Bool := schema.typeIs (·.isAbstract) name

/-- Is it an object type? -/
def isObject (schema : Schema) (name : String) : Bool := schema.typeIs (·.isObject) name

/-- Is it an interface type? -/
def isInterface (schema : Schema) (name : String) : Bool := schema.typeIs (·.isInterface) name

/-- Does the type have no parts? -/
def isLeaf (schema : Schema) (name : String) : Bool := schema.typeIs (·.isLeaf) name

/-- The root type of a kind of operation. -/
def root? (schema : Schema) : OperationKind → Option String
  | .query => schema.query
  | .mutation => schema.mutation
  | .subscription => schema.subscription

/-- The directive under a name. -/
def directive? (schema : Schema) (name : String) : Option DirectiveType := schema.directives.find? (·.name == name)

/-! ## Object types behind a type -/

/-- The names of the object types that implement an interface. -/
def implementingObjects (schema : Schema) (interface : String) : List String :=
  (schema.types.filter fun t => t.details.isObject && t.details.interfaces.contains interface).map (·.name)

/-- The names of the interface types that implement an interface. -/
def implementingInterfaces (schema : Schema) (interface : String) : List String :=
  (schema.types.filter fun t => t.details.isInterface && t.details.interfaces.contains interface).map (·.name)

/-- The object types a value of an abstract type can have, in the schema's order. -/
def membersOf (schema : Schema) (name : String) : List String :=
  match schema.details? name with
  | some (.union members) => members
  | some (.interface ..) => schema.implementingObjects name
  | _ => []

/-- The object types a value of the type can have; none for a type without parts or a name that is no type. -/
def possibleTypes (schema : Schema) (name : String) : NameSet :=
  match schema.details? name with
  | some (.object ..) => .singleton name
  | some (.union members) => .ofList members
  | some (.interface ..) => .ofList (schema.implementingObjects name)
  | _ => .empty

/-- Is `sub` one of the types that the abstract type `super` stands for? -/
def isSubTypeName (schema : Schema) (super sub : String) : Bool :=
  match schema.details? super with
  | some (.union members) => members.contains sub
  | some (.interface ..) =>
    (schema.implementingObjects super).contains sub || (schema.implementingInterfaces super).contains sub
  | _ => false

/-- Can a value of type `sub` stand where one of type `super` is expected? -/
def isSubType (schema : Schema) : TypeRef → TypeRef → Bool
  | sub, .nonNull super =>
    match sub with
    | .nonNull sub => isSubType schema sub super
    | _ => false
  | .nonNull sub, super => isSubType schema sub super
  | .list sub, .list super => isSubType schema sub super
  | .named sub, .named super =>
    sub == super ||
      (schema.isAbstract super && (schema.isInterface sub || schema.isObject sub) && schema.isSubTypeName super sub)
  | _, _ => false

/-! ## Fields -/

/-- The field that tells an object's type. -/
def typenameField : OutputField := ⟨"__typename", .nonNull (.named "String"), []⟩

/-- The root field that describes the schema. -/
def schemaField : OutputField := ⟨"__schema", .nonNull (.named "__Schema"), []⟩

/-- The root field that describes one type. -/
def typeField : OutputField :=
  ⟨"__type", .named "__Type", [⟨"name", .nonNull (.named "String"), none, false⟩]⟩

/-- The field a selection of `name` on the type `parent` refers to, the fields about types included. -/
def fieldOf? (schema : Schema) (parent : Option String) (name : String) : Option OutputField :=
  if name == "__typename" then some typenameField
  else if parent == schema.query && name == "__schema" then some schemaField
  else if parent == schema.query && name == "__type" then some typeField
  else (parent.bind schema.details?).bind fun details => details.fields.find? (·.name == name)

end Schema

end FixtureCheck.GraphQL
