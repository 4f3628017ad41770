import FixtureCheck.GraphQL.Rule.Basic

/-!
# Rules about directives

Directives are known, stand where they may stand, and are repeated at one place only where they may be. The places of a
type are its definition and all its extensions together. A definition in the document replaces one of the schema.
-/

namespace FixtureCheck.GraphQL

/-- The definition of a directive in a document; the last one counts. -/
def definedDirective? (document : Document) (name : String) : Option DirectiveDefinition :=
  document.reverse.findSome? fun
    | .directive d => if d.name == name then some d else none
    | _ => none

/-- The directive of a schema under a name; the last one counts. -/
def schemaDirective? (schema : Schema) (name : String) : Option DirectiveType :=
  schema.directives.reverse.find? (·.name == name)

/-- The places where a directive may stand. -/
def allowedPlaces? (schema : Schema) (document : Document) (name : String) : Option (List String) :=
  match definedDirective? document name with
  | some d => some d.locations
  | none => (schemaDirective? schema name).map (·.locations)

/-- The place for directives that a definition is. -/
def Definition.place : Definition → String
  | .operation o => o.kind.text.toUpper
  | .fragment _ => "FRAGMENT_DEFINITION"
  | .schema _ | .schemaExtension _ => "SCHEMA"
  | .type t | .typeExtension t =>
    match t.body with
    | .scalar => "SCALAR"
    | .object .. => "OBJECT"
    | .interface .. => "INTERFACE"
    | .union _ => "UNION"
    | .enum _ => "ENUM"
    | .input _ => "INPUT_OBJECT"
  | .directive _ => ""

/-- The place for directives that a part is. -/
def Node.place : Node → String
  | .definition d => d.place
  | .variableDefinition _ => "VARIABLE_DEFINITION"
  | .field .. => "FIELD"
  | .spread .. => "FRAGMENT_SPREAD"
  | .inline .. => "INLINE_FRAGMENT"
  | .fieldDefinition _ => "FIELD_DEFINITION"
  | .inputDefinition _ true => "INPUT_FIELD_DEFINITION"
  | .inputDefinition _ false => "ARGUMENT_DEFINITION"
  | .enumValueDefinition _ => "ENUM_VALUE"
  | _ => ""

/-- The words for a place. -/
def placeWords (place : String) : String := place.toLower.map fun c => if c == '_' then ' ' else c

/-- Directives are known and stand where they may stand. -/
def knownDirectives : Rule := fun schema document => eachEntry fun visit =>
  match visit.node with
  | .directive d =>
    match allowedPlaces? schema document d.name with
    | none | some [] => [s!"Unknown directive '@{d.name}'."]
    | some places =>
      let place := visit.parent.place
      if places.contains place then [] else [s!"Directive '@{d.name}' may not be used on {placeWords place}."]
  | _ => []

/-! ## Repetition -/

/-- May a directive stand at a place once only? -/
def isSingle (schema : Schema) (document : Document) (name : String) : Bool :=
  match definedDirective? document name with
  | some d => !d.repeatable
  | none => (schemaDirective? schema name).any (!·.isRepeatable)

/-- What the parts of a document share when directives are counted: nothing, the schema, or a type. -/
def Node.directiveGroup : Node → Option String
  | .definition (.schema _) | .definition (.schemaExtension _) => some ""
  | .definition (.type t) | .definition (.typeExtension t) => some t.name
  | _ => none

/-- The repetitions of names among those seen before and each other, and all names seen. -/
def repetitions (seen : List String) : List String → List String × List String
  | [] => ([], seen)
  | name :: rest =>
    if seen.contains name then
      let (again, seen) := repetitions seen rest
      (name :: again, seen)
    else repetitions (name :: seen) rest

/-- A directive stands at a place once, unless it may be repeated. -/
def uniqueDirectivesPerLocation : Rule := fun schema document walk =>
  go schema document [] walk
where
  /-- `seen` holds the directives of the schema and of each type. -/
  go (schema : Schema) (document : Document) (seen : List (String × List String)) : List (Visit × Nat) → List Report
    | [] => []
    | (visit, time) :: rest =>
      let names := if visit.entering then (visit.node.directives.map (·.name)).filter (isSingle schema document) else []
      let group := visit.node.directiveGroup
      let before := (group.bind fun g => seen.lookup g).getD []
      let (again, after) := repetitions before names
      let seen := match group with
        | some g => (g, after) :: seen
        | none => seen
      again.map (fun name => ⟨time, s!"The directive '@{name}' can only be used once at this location."⟩) ++
        go schema document seen rest

end FixtureCheck.GraphQL
