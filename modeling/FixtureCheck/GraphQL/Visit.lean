import FixtureCheck.GraphQL.Schema

/-!
# Walks through a document

`visits schema document` lists the parts of a document in reading order. Each part is met twice, on the way in and on
the way out, and each `Visit` carries the part above it and what the schema says about its place: the type of the field
or fragment around it, the type expected of a value, the argument and directive it belongs to.

A type name stands for the whole of a written type, since only the name can be looked up. Descriptions are no values and
are not visited.
-/

namespace FixtureCheck.GraphQL

/-- A part of a document. -/
inductive Node where
  | document (definitions : Document)
  | definition (definition : Definition)
  | variableDefinition (definition : VariableDefinition)
  | selectionSet (selections : List Selection)
  | field (field : Field) (selections : List Selection)
  | spread (fragment : String) (directives : List Directive)
  | inline (condition : Option String) (directives : List Directive) (selections : List Selection)
  | argument (argument : Argument)
  | directive (directive : Directive)
  | value (value : Value)
  | objectField (name : String) (value : Value)
  | typeName (name : String)
  | fieldDefinition (definition : FieldDefinition)
  | inputDefinition (definition : InputDefinition) (isInputField : Bool)
  | enumValueDefinition (definition : EnumValueDefinition)
  deriving Inhabited

/-- The directives of a definition. -/
def Definition.directives : Definition → List Directive
  | .operation o => o.directives
  | .fragment f => f.directives
  | .schema s | .schemaExtension s => s.directives
  | .type t | .typeExtension t => t.directives
  | .directive _ => []

/-- The directives of a part. -/
def Node.directives : Node → List Directive
  | .definition d => d.directives
  | .variableDefinition v => v.directives
  | .field f _ => f.directives
  | .spread _ ds | .inline _ ds _ => ds
  | .fieldDefinition d => d.directives
  | .inputDefinition d _ => d.directives
  | .enumValueDefinition d => d.directives
  | _ => []

/-! ## What the schema says about a place -/

/-- What a schema says about a place in a document. -/
structure Scope where
  /-- The type of the field, fragment or operation around the place. -/
  type : Option TypeRef := none
  /-- The type whose fields a selection set selects. -/
  parent : Option String := none
  field : Option OutputField := none
  /-- The type that is expected of a value. -/
  input : Option TypeRef := none
  /-- The type that is expected of the value around it. -/
  outerInput : Option TypeRef := none
  /-- The value that stands in for an absent one. -/
  default? : Option Value := none
  argument : Option InputValue := none
  directive : Option DirectiveType := none
  deriving Inhabited

namespace Scope

/-- The named type, if fields can have it. -/
def outputNamed (schema : Schema) (name : String) : Option TypeRef :=
  if schema.typeIs (·.isOutput) name then some (.named name) else none

/-- The written type, if input values can have it. -/
def inputRef (schema : Schema) (type : TypeRef) : Option TypeRef :=
  if schema.isInputType type then some type else none

/-- Inside an operation. -/
def inOperation (schema : Schema) (kind : OperationKind) (scope : Scope) : Scope :=
  { scope with type := ((schema.root? kind).filter schema.isObject).map .named }

/-- Inside a fragment with a type condition. -/
def inCondition (schema : Schema) (condition : String) (scope : Scope) : Scope :=
  { scope with type := outputNamed schema condition }

/-- Inside an inline fragment. -/
def inInline (schema : Schema) (condition : Option String) (scope : Scope) : Scope :=
  match condition with
  | some name => scope.inCondition schema name
  | none => { scope with type := scope.type.map fun t => .named t.base }

/-- Inside a selection set. -/
def inSelectionSet (schema : Schema) (scope : Scope) : Scope :=
  { scope with parent := (scope.type.map (·.base)).filter schema.isComposite }

/-- Inside a selected field. -/
def inField (schema : Schema) (name : String) (scope : Scope) : Scope :=
  let field := scope.parent.bind fun parent => schema.fieldOf? (some parent) name
  { scope with field := field, type := field.map (·.type) }

/-- One level further down in a value. -/
def expecting (input : Option TypeRef) (default? : Option Value) (scope : Scope) : Scope :=
  { scope with input := input, outerInput := scope.input, default? := default? }

/-- Inside the definition of a variable. -/
def inVariable (schema : Schema) (type : TypeRef) (scope : Scope) : Scope :=
  scope.expecting (inputRef schema type) scope.default?

/-- Inside a directive. -/
def inDirective (schema : Schema) (name : String) (scope : Scope) : Scope :=
  { scope with directive := schema.directive? name }

/-- Inside an argument: of the directive around it if the schema knows it, else of the field around it. -/
def inArgument (name : String) (scope : Scope) : Scope :=
  let arguments := match scope.directive, scope.field with
    | some d, _ => d.arguments
    | none, some f => f.arguments
    | none, none => []
  let argument := arguments.find? (·.name == name)
  { scope.expecting (argument.map (·.type)) (argument.bind (·.default?)) with argument := argument }

/-- Inside a list. -/
def inList (schema : Schema) (scope : Scope) : Scope :=
  let item := match scope.input.map (·.nullable) with
    | some (.list t) => some t
    | t => t
  scope.expecting (item.bind (inputRef schema)) none

/-- Inside a field of an object literal. -/
def inObjectField (schema : Schema) (name : String) (scope : Scope) : Scope :=
  let details := scope.input.bind fun t => schema.details? t.base
  let field := (details.map (·.inputFields)).bind fun fields => fields.find? (·.name == name)
  scope.expecting (field.map (·.type)) (field.bind (·.default?))

end Scope

/-! ## Visits -/

/-- A meeting with a part of a document. -/
structure Visit where
  /-- On the way in, or on the way out? -/
  entering : Bool
  node : Node
  /-- The part above. -/
  parent : Node
  /-- The number of parts above. -/
  depth : Nat
  /-- Is the definition around it part of a type system? -/
  inTypeSystem : Bool
  scope : Scope
  deriving Inhabited

/-- Where a walk stands. -/
structure Position where
  parent : Node
  depth : Nat
  inTypeSystem : Bool
  scope : Scope

namespace Position

/-- The position below a part. -/
def below (position : Position) (node : Node) (scope : Scope) : Position :=
  { position with parent := node, depth := position.depth + 1, scope := scope }

/-- The meetings with a part, with those of its own parts between them. -/
def around (position : Position) (node : Node) (scope : Scope) (inside : List Visit) : List Visit :=
  let visit (entering : Bool) : Visit :=
    ⟨entering, node, position.parent, position.depth, position.inTypeSystem, scope⟩
  visit true :: inside ++ [visit false]

/-- The meetings with a part that has no parts. -/
def leaf (position : Position) (node : Node) : List Visit := position.around node position.scope []

end Position

section

variable (schema : Schema)

mutual

/-- The walk through a value. -/
def valueVisits (position : Position) : Value → List Visit
  | .list items =>
    let scope := position.scope.inList schema
    let node := Node.value (.list items)
    position.around node scope (valuesVisits (position.below node scope) items)
  | .object fields =>
    let node := Node.value (.object fields)
    position.around node position.scope (objectFieldsVisits (position.below node position.scope) fields)
  | value => position.leaf (.value value)

/-- The walk through the items of a list. -/
def valuesVisits (position : Position) : List Value → List Visit
  | [] => []
  | value :: rest => valueVisits position value ++ valuesVisits position rest

/-- The walk through the fields of an object literal. -/
def objectFieldsVisits (position : Position) : List (String × Value) → List Visit
  | [] => []
  | (name, value) :: rest =>
    let scope := position.scope.inObjectField schema name
    let node := Node.objectField name value
    position.around node scope (valueVisits (position.below node scope) value) ++ objectFieldsVisits position rest

end

/-- The walk through a value that may be absent. -/
def valueVisits? (position : Position) (value : Option Value) : List Visit :=
  match value with
  | some v => valueVisits schema position v
  | none => []

/-- The walk through arguments. -/
def argumentsVisits (position : Position) (arguments : List Argument) : List Visit :=
  arguments.flatMap fun a =>
    let scope := position.scope.inArgument a.name
    position.around (.argument a) scope (valueVisits schema (position.below (.argument a) scope) a.value)

/-- The walk through directives. -/
def directivesVisits (position : Position) (directives : List Directive) : List Visit :=
  directives.flatMap fun d =>
    let scope := position.scope.inDirective schema d.name
    position.around (.directive d) scope (argumentsVisits schema (position.below (.directive d) scope) d.arguments)

/-- The walk through type names. -/
def typeNamesVisits (position : Position) (names : List String) : List Visit :=
  names.flatMap fun name => position.leaf (.typeName name)

mutual

/-- The walk through a selection. -/
def selectionVisits (position : Position) : Selection → List Visit
  | .field field selections =>
    let scope := position.scope.inField schema field.name
    let node := Node.field field selections
    let inner := position.below node scope
    position.around node scope <|
      argumentsVisits schema inner field.arguments ++ directivesVisits schema inner field.directives ++
        (if selections.isEmpty then [] else
          let setScope := scope.inSelectionSet schema
          let set := Node.selectionSet selections
          inner.around set setScope (selectionsVisits (inner.below set setScope) selections))
  | .spread fragment directives =>
    let node := Node.spread fragment directives
    position.around node position.scope (directivesVisits schema (position.below node position.scope) directives)
  | .inline condition directives selections =>
    let scope := position.scope.inInline schema condition
    let node := Node.inline condition directives selections
    let inner := position.below node scope
    let setScope := scope.inSelectionSet schema
    let set := Node.selectionSet selections
    position.around node scope <|
      typeNamesVisits inner condition.toList ++ directivesVisits schema inner directives ++
        inner.around set setScope (selectionsVisits (inner.below set setScope) selections)

/-- The walk through selections in a row. -/
def selectionsVisits (position : Position) : List Selection → List Visit
  | [] => []
  | selection :: rest => selectionVisits position selection ++ selectionsVisits position rest

end

/-- The walk through the selection set of an operation or fragment. -/
def selectionSetVisits (position : Position) (selections : List Selection) : List Visit :=
  let scope := position.scope.inSelectionSet schema
  let set := Node.selectionSet selections
  position.around set scope (selectionsVisits schema (position.below set scope) selections)

/-- The walk through the definition of a variable. -/
def variableVisits (position : Position) (v : VariableDefinition) : List Visit :=
  let scope := position.scope.inVariable schema v.type
  let inner := position.below (.variableDefinition v) scope
  position.around (.variableDefinition v) scope <|
    inner.leaf (.value (.variable v.name)) ++ inner.leaf (.typeName v.type.base) ++
      valueVisits? schema inner v.default? ++ directivesVisits schema inner v.directives

/-- The walk through the declaration of an argument or input field. -/
def inputDefinitionVisits (isInputField : Bool) (position : Position) (d : InputDefinition) : List Visit :=
  let node := Node.inputDefinition d isInputField
  let inner := position.below node position.scope
  position.around node position.scope <|
    inner.leaf (.typeName d.type.base) ++ valueVisits? schema inner d.default? ++
      directivesVisits schema inner d.directives

/-- The walk through the declaration of a field. -/
def fieldDefinitionVisits (position : Position) (d : FieldDefinition) : List Visit :=
  let inner := position.below (.fieldDefinition d) position.scope
  position.around (.fieldDefinition d) position.scope <|
    d.arguments.flatMap (inputDefinitionVisits schema false inner) ++ inner.leaf (.typeName d.type.base) ++
      directivesVisits schema inner d.directives

/-- The walk through the declaration of an enum value. -/
def enumValueVisits (position : Position) (d : EnumValueDefinition) : List Visit :=
  let inner := position.below (.enumValueDefinition d) position.scope
  position.around (.enumValueDefinition d) position.scope (directivesVisits schema inner d.directives)

/-- The walk through the parts of a type definition or extension. -/
def typeVisits (isExtension : Bool) (position : Position) (d : TypeDefinition) : List Visit :=
  let directives := directivesVisits schema position d.directives
  match d.body with
  | .scalar => directives
  | .object interfaces fields | .interface interfaces fields =>
    typeNamesVisits position interfaces ++ directives ++ fields.flatMap (fieldDefinitionVisits schema position)
  | .union members => directives ++ typeNamesVisits position members
  | .enum values => directives ++ values.flatMap (enumValueVisits schema position)
  | .input fields => directives ++ fields.flatMap (inputDefinitionVisits schema (!isExtension) position)

/-- The walk through the parts of a schema definition or extension. -/
def schemaVisits (position : Position) (d : SchemaDefinition) : List Visit :=
  directivesVisits schema position d.directives ++ typeNamesVisits position (d.roots.map (·.2))

/-- Does a definition belong to a type system? -/
def Definition.isTypeSystem : Definition → Bool
  | .operation _ | .fragment _ => false
  | _ => true

/-- What the schema says about the inside of a definition. -/
def Definition.scope : Definition → Scope
  | .operation o => ({} : Scope).inOperation schema o.kind
  | .fragment f => ({} : Scope).inCondition schema f.condition
  | _ => {}

/-- The walk through the parts of a definition. -/
def definitionParts (position : Position) : Definition → List Visit
  | .operation o =>
    o.variableDefinitions.flatMap (variableVisits schema position) ++ directivesVisits schema position o.directives ++
      selectionSetVisits schema position o.selections
  | .fragment f =>
    position.leaf (.typeName f.condition) ++ directivesVisits schema position f.directives ++
      selectionSetVisits schema position f.selections
  | .schema d | .schemaExtension d => schemaVisits schema position d
  | .type d => typeVisits schema false position d
  | .typeExtension d => typeVisits schema true position d
  | .directive d => d.arguments.flatMap (inputDefinitionVisits schema false position)

/-- The walk through a definition of a document. -/
def definitionVisits (document : Document) (d : Definition) : List Visit :=
  let position : Position := ⟨.document document, 1, d.isTypeSystem, {}⟩
  let scope := d.scope schema
  position.around (.definition d) scope (definitionParts schema (position.below (.definition d) scope) d)

/-- The walk through a document. -/
def visits (document : Document) : List Visit :=
  let position : Position := ⟨.document document, 0, false, {}⟩
  position.around (.document document) {} (document.flatMap (definitionVisits schema document))

end

end FixtureCheck.GraphQL
