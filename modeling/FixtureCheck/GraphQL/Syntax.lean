/-!
# GraphQL documents

The syntax trees of queries and of type system documents. A selection set is a list of selections; a field without
sub-selections has the empty list, since no selection set is empty. Numbers keep their spelling.
-/

namespace FixtureCheck.GraphQL

/-- A literal, or a variable where the grammar allows one. -/
inductive Value where
  | variable (name : String)
  | int (digits : String)
  | float (digits : String)
  | string (value : String) (isBlock : Bool)
  | boolean (value : Bool)
  | null
  | enum (name : String)
  | list (items : List Value)
  | object (fields : List (String × Value))
  deriving Repr, Inhabited

/-- A type as it is written: a name, a list of a type, or a type without null. -/
inductive TypeRef where
  | named (name : String)
  | list (item : TypeRef)
  | nonNull (nullable : TypeRef)
  deriving Repr, Inhabited, DecidableEq

namespace TypeRef

/-- The text of a type. -/
def text : TypeRef → String
  | named name => name
  | list item => "[" ++ item.text ++ "]"
  | nonNull nullable => nullable.text ++ "!"

/-- The name at the core of a type. -/
def base : TypeRef → String
  | named name => name
  | list item => item.base
  | nonNull nullable => nullable.base

/-- The type without an outermost non-null mark. -/
def nullable : TypeRef → TypeRef
  | nonNull t => t
  | t => t

/-- Does the type exclude null? -/
def isNonNull : TypeRef → Bool
  | nonNull _ => true
  | _ => false

end TypeRef

/-- An argument; `valueOffset` is where its value begins in the text, for messages. -/
structure Argument where
  name : String
  value : Value
  valueOffset : Nat
  deriving Repr, Inhabited

/-- A directive as it is applied; `offset` is where it begins in the text, for messages. -/
structure Directive where
  name : String
  arguments : List Argument
  offset : Nat
  deriving Repr, Inhabited

/-! ## Queries -/

/-- A selected field, sub-selections apart. -/
structure Field where
  aliasName : Option String
  name : String
  arguments : List Argument
  directives : List Directive
  deriving Repr, Inhabited

/-- The key under which a response holds a field: its alias, else its name. -/
def Field.key (f : Field) : String := f.aliasName.getD f.name

/-- One selection of a selection set. -/
inductive Selection where
  | field (field : Field) (selections : List Selection)
  | spread (fragment : String) (directives : List Directive)
  | inline (condition : Option String) (directives : List Directive) (selections : List Selection)
  deriving Repr, Inhabited

/-- The kinds of operations. -/
inductive OperationKind where
  | query
  | mutation
  | subscription
  deriving DecidableEq, Repr, Inhabited

/-- The keyword of a kind of operation. -/
def OperationKind.text : OperationKind → String
  | query => "query"
  | mutation => "mutation"
  | subscription => "subscription"

/-- A variable that an operation declares. -/
structure VariableDefinition where
  description : Option Value
  name : String
  type : TypeRef
  default? : Option Value
  directives : List Directive
  deriving Repr, Inhabited

/-- A query, mutation or subscription. -/
structure Operation where
  description : Option Value
  kind : OperationKind
  name : Option String
  variableDefinitions : List VariableDefinition
  directives : List Directive
  selections : List Selection
  deriving Repr, Inhabited

/-- A named fragment. -/
structure Fragment where
  description : Option Value
  name : String
  condition : String
  directives : List Directive
  selections : List Selection
  deriving Repr, Inhabited

/-! ## Type systems -/

/-- An argument or input field as it is declared. -/
structure InputDefinition where
  description : Option Value
  name : String
  type : TypeRef
  default? : Option Value
  directives : List Directive
  deriving Repr, Inhabited

/-- A field as it is declared. -/
structure FieldDefinition where
  description : Option Value
  name : String
  arguments : List InputDefinition
  type : TypeRef
  directives : List Directive
  deriving Repr, Inhabited

/-- An enum value as it is declared. -/
structure EnumValueDefinition where
  description : Option Value
  name : String
  directives : List Directive
  deriving Repr, Inhabited

/-- What a type definition or extension says beyond its name and directives. -/
inductive TypeBody where
  | scalar
  | object (interfaces : List String) (fields : List FieldDefinition)
  | interface (interfaces : List String) (fields : List FieldDefinition)
  | union (members : List String)
  | enum (values : List EnumValueDefinition)
  | input (fields : List InputDefinition)
  deriving Repr, Inhabited

/-- A type definition, or an extension of one, which has no description. -/
structure TypeDefinition where
  description : Option Value
  name : String
  directives : List Directive
  body : TypeBody
  deriving Repr, Inhabited

/-- The root types that a schema definition or extension names. -/
structure SchemaDefinition where
  description : Option Value
  directives : List Directive
  roots : List (OperationKind × String)
  deriving Repr, Inhabited

/-- A directive as it is declared; `locations` are its places by name. -/
structure DirectiveDefinition where
  description : Option Value
  name : String
  arguments : List InputDefinition
  repeatable : Bool
  locations : List String
  deriving Repr, Inhabited

/-- One definition of a document. -/
inductive Definition where
  | operation (operation : Operation)
  | fragment (fragment : Fragment)
  | schema (schema : SchemaDefinition)
  | schemaExtension (schema : SchemaDefinition)
  | type (type : TypeDefinition)
  | typeExtension (type : TypeDefinition)
  | directive (directive : DirectiveDefinition)
  deriving Repr, Inhabited

/-- A document: its definitions in order. -/
abbrev Document := List Definition

/-- The operations of a document. -/
def operations (document : Document) : List Operation :=
  document.filterMap fun
    | .operation o => some o
    | _ => none

/-- The fragments of a document. -/
def fragments (document : Document) : List Fragment :=
  document.filterMap fun
    | .fragment f => some f
    | _ => none

/-- The places a directive can be declared for. -/
def directiveLocations : List String :=
  ["QUERY", "MUTATION", "SUBSCRIPTION", "FIELD", "FRAGMENT_DEFINITION", "FRAGMENT_SPREAD", "INLINE_FRAGMENT",
    "VARIABLE_DEFINITION", "SCHEMA", "SCALAR", "OBJECT", "FIELD_DEFINITION", "ARGUMENT_DEFINITION", "INTERFACE",
    "UNION", "ENUM", "ENUM_VALUE", "INPUT_OBJECT", "INPUT_FIELD_DEFINITION"]

end FixtureCheck.GraphQL
