import FixtureCheck.GraphQL.DirectiveValue
import FixtureCheck.GraphQL.Schema.Draft
import FixtureCheck.GraphQL.Syntax.Parser
import FixtureCheck.GraphQL.Validation

/-!
# Schemas from documents

`schemaOfText` reads a document that defines a type system and builds its schema: the document has to keep the rules for
type systems, extensions are merged into the types they extend, and the root types are those of the schema definition,
else the types with the standard names. A definition cannot change a standard type. The standard directives that the
document does not define are added.
-/

namespace FixtureCheck.GraphQL

/-- Is exactly one field of the input object type to be given? -/
def TypeDefinition.isOneOf (definition : TypeDefinition) : Bool :=
  definition.directives.any (·.name == Standard.oneOf.name)

/-- A document with its text, where its types are looked up. -/
structure TypeSystem where
  source : List Char
  document : Document

namespace TypeSystem

variable (system : TypeSystem)

/-- The definition of a type followed by its extensions. -/
def parts (definition : TypeDefinition) : List TypeDefinition :=
  definition :: system.document.filterMap fun
    | .typeExtension t => if t.name == definition.name then some t else none
    | _ => none

/-- The definitions of types. -/
def definitions : List TypeDefinition :=
  system.document.filterMap fun
    | .type t => some t
    | _ => none

/-- The kind of a type, its parts left open. -/
def kind? (name : String) : Option TypeBody :=
  match Standard.type? name with
  | some t =>
    match t.details with
    | .scalar => some .scalar
    | .enum _ => some (.enum [])
    | _ => some (.object [] [])
  | none => (system.definitions.find? (·.name == name)).map (·.body)

/-- Can input values have the type? -/
def isInput (type : TypeRef) : Bool :=
  match system.kind? type.base with
  | some .scalar | some (.enum _) | some (.input _) => true
  | _ => false

/-- Can fields have the type? -/
def isOutput (type : TypeRef) : Bool :=
  match system.kind? type.base with
  | some (.input _) => false
  | _ => true

/-- Reads what directives say, and places the message if they are misused. -/
def lift {α : Type} (reading : Except ArgumentMisuse α) : Except SchemaError α :=
  reading.mapError fun misuse => .fault (misuse.inText system.source)

/-- The values of an enum type. -/
def enumValues (definition : TypeDefinition) : List EnumValueDefinition :=
  (system.parts definition).flatMap fun t =>
    match t.body with
    | .enum values => values
    | _ => []

/-- The fields of an input object type as they are declared. -/
def inputDefinitions (definition : TypeDefinition) : List InputDefinition :=
  (system.parts definition).flatMap fun t =>
    match t.body with
    | .input fields => fields
    | _ => []

/-! ## Arguments and input fields -/

/-- An argument or input field, given what checks its default. -/
def inputValue (typeOf : String → LiteralType SchemaError) (notInput : SchemaError) (d : InputDefinition) :
    Except SchemaError InputValue := do
  let default? ← match d.default? with
    | none => pure none
    | some v => do if ← fits typeOf d.type v then pure (some v) else pure none
  let isDeprecated ← system.lift (isDeprecated d.directives)
  if system.isInput d.type then return ⟨d.name, d.type, default?, isDeprecated⟩ else .error notInput

mutual

/-- The fields of an input object type, with defaults nested at most `n` types deep. -/
def inputFields (n : Nat) (definition : TypeDefinition) : Except SchemaError (List InputValue) :=
  match n with
  | 0 => .error .endlessDefault
  | n + 1 =>
    ((system.inputDefinitions definition).mapM (system.inputValue (literalType n) .inputFieldNotInput)).mapError
      (.unresolved definition.name .fields)
termination_by (n, 0)

/-- What a check of a literal has to know about a type. -/
def literalType (n : Nat) (name : String) : LiteralType SchemaError :=
  match Standard.type? name, system.definitions.find? (·.name == name) with
  | some t, _ => (DraftDetails.ofDetails t.details).literalType name
  | none, some d =>
    match d.body with
    | .scalar => DraftDetails.scalar.literalType name
    | .enum _ => (DraftDetails.enum ((system.enumValues d).map (·.name))).literalType name
    | .input _ => .input (inputFields n d) d.isOneOf
    | _ => .other (.defaultNotInput name)
  | none, none => .other (.defaultNotInput name)
termination_by (n, 1)

end

/-- The number of types that defaults can be nested in. -/
def bound : Nat := system.definitions.length + 1

/-- The arguments of a field or directive. -/
def arguments (ds : List InputDefinition) : Except SchemaError (List InputValue) :=
  ds.mapM (system.inputValue (system.literalType system.bound) .argumentNotInput)

/-! ## Types -/

/-- A field of an object or interface type. -/
def outputField (d : FieldDefinition) : Except SchemaError OutputField := do
  let arguments ← system.arguments d.arguments
  let _ ← system.lift (isDeprecated d.directives)
  if system.isOutput d.type then return ⟨d.name, d.type, arguments⟩ else .error .fieldNotOutput

/-- The fields of an object or interface type. -/
def outputFields (definition : TypeDefinition) : Except SchemaError (List OutputField) :=
  let ds := (system.parts definition).flatMap fun t =>
    match t.body with
    | .object _ fields | .interface _ fields => fields
    | _ => []
  (ds.mapM system.outputField).mapError (.unresolved definition.name .fields)

/-- The interfaces of an object or interface type. -/
def interfaces (definition : TypeDefinition) : Except SchemaError (List String) :=
  let names := (system.parts definition).flatMap fun t =>
    match t.body with
    | .object names _ | .interface names _ => names
    | _ => []
  if names.all fun name => system.kind? name matches some (.interface ..) then .ok names
  else .error (.notInterfaces definition.name)

/-- The members of a union type. -/
def members (definition : TypeDefinition) : Except SchemaError (List String) :=
  let names := (system.parts definition).flatMap fun t =>
    match t.body with
    | .union names => names
    | _ => []
  if names.all fun name => system.kind? name matches some (.object ..) then .ok names
  else .error (.notObjects definition.name)

/-- The details of a type; what its directives say is looked at at once. -/
def draftDetails (d : TypeDefinition) : Except SchemaError DraftDetails :=
  match Standard.type? d.name with
  | some t => .ok (.ofDetails t.details)
  | none =>
    match d.body with
    | .scalar => do
      let _ ← system.lift (directiveValue? Standard.specifiedBy "url" d.directives)
      return .scalar
    | .object .. => .ok (.object (system.interfaces d) (system.outputFields d))
    | .interface .. => .ok (.interface (system.interfaces d) (system.outputFields d))
    | .union _ => .ok (.union (system.members d))
    | .enum _ => do
      let values ← (system.enumValues d).mapM fun v => do
        let _ ← system.lift (isDeprecated v.directives)
        return v.name
      return .enum values
    | .input _ => .ok (.input (system.inputFields system.bound d) d.isOneOf)

/-! ## The schema -/

/-- The root types that definitions name, the last one for each kind of operation. -/
def namedRoot? (kind : OperationKind) : Option String :=
  let roots (isExtension : Bool) : List (OperationKind × String) := system.document.flatMap fun
    | .schema s => if isExtension then [] else s.roots
    | .schemaExtension s => if isExtension then s.roots else []
    | _ => []
  (((roots false ++ roots true).filter (·.1 == kind)).getLast?).map (·.2)

/-- The standard name of a root type. -/
def standardRoot : OperationKind → String
  | .query => "Query"
  | .mutation => "Mutation"
  | .subscription => "Subscription"

/-- The root type for a kind of operation; without a schema definition the type of the standard name comes first. -/
def root? (kind : OperationKind) : Option String :=
  let hasDefinition := system.document.any fun d => d matches .schema _
  if !hasDefinition && system.definitions.any (·.name == standardRoot kind) then some (standardRoot kind)
  else system.namedRoot? kind

/-- The directives that the document defines. -/
def directives : Except SchemaError (List DirectiveType) :=
  (system.document.filterMap fun
    | .directive d => some d
    | _ => none).mapM fun d => return ⟨d.name, ← system.arguments d.arguments, d.repeatable, d.locations⟩

/-- The schema of the document. -/
def schema : Except SchemaError Schema := do
  match definitionErrors system.document with
  | [] => pure ()
  | errors => throw (.rules errors)
  let types ← system.definitions.mapM fun d => return (d.name, ← system.draftDetails d)
  let own ← system.directives
  let missing := Standard.directives.filter fun d => !own.any (·.name == d.name)
  Draft.schema ⟨types, system.root? .query, system.root? .mutation, system.root? .subscription, own ++ missing⟩

end TypeSystem

/-- The schema that a text defines. -/
def schemaOfText (text : String) : Except SchemaError Schema := do
  let document ← (parseDocument text).mapError .fault
  TypeSystem.schema ⟨text.toList, document⟩

end FixtureCheck.GraphQL
