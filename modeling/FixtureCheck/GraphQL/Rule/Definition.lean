import FixtureCheck.GraphQL.Rule.Argument
import FixtureCheck.GraphQL.Rule.Type

/-!
# Rules about type systems

A document defines one schema, at most one root type of a kind, types and directives with distinct names, and members
with distinct names in each type together with its extensions. A type is extended only by an extension of its own kind.
-/

namespace FixtureCheck.GraphQL

open Text

/-- The reports of a rule that looks at definitions, with a memory. -/
def eachDefinition {σ : Type} (step : σ → Definition → List String × σ) (memory : σ) : List (Visit × Nat) → List Report
  | [] => []
  | (visit, time) :: rest =>
    match visit.entering, visit.node with
    | true, .definition d =>
      let (messages, memory) := step memory d
      messages.map (⟨time, ·⟩) ++ eachDefinition step memory rest
    | _, _ => eachDefinition step memory rest

/-- There is one schema definition. -/
def loneSchemaDefinition : Rule := fun _ _ =>
  repeats (fun visit => match visit.node with
    | .definition (.schema _) => some ""
    | _ => none)
    fun _ => "Must provide only one schema definition."

/-- There is one root type for each kind of operation. -/
def uniqueOperationTypes : Rule := fun _ _ => eachDefinition (fun seen d =>
  match d with
  | .schema s | .schemaExtension s =>
    let (again, seen) := repetitions seen (s.roots.map (·.1.text))
    (again.map fun kind => s!"There can be only one {kind} type in schema.", seen)
  | _ => ([], seen)) []

/-- Types have distinct names. -/
def uniqueTypeNames : Rule := fun _ _ =>
  repeats (fun visit => match visit.node with
    | .definition (.type t) => some t.name
    | _ => none)
    fun name => s!"There can be only one type named '{name}'."

/-- Directives have distinct names. -/
def uniqueDirectiveNames : Rule := fun _ _ =>
  repeats (fun visit => match visit.node with
    | .definition (.directive d) => some d.name
    | _ => none)
    fun name => s!"There can be only one directive named '@{name}'."

/-- A type definition or extension. -/
def Definition.typePart? : Definition → Option TypeDefinition
  | .type t | .typeExtension t => some t
  | _ => none

/-- The reports on members of types whose names are repeated, over the definition of a type and its extensions. -/
def uniqueMembers (members : TypeBody → List String) (message : String → String) : Rule := fun _ _ =>
  eachDefinition (fun (seen : List (String × List String)) d =>
    match d.typePart? with
    | none => ([], seen)
    | some t =>
      let (again, after) := repetitions ((seen.lookup t.name).getD []) (members t.body)
      (again.map fun name => message s!"{t.name}.{name}", (t.name, after) :: seen)) []

/-- Enum values have distinct names. -/
def uniqueEnumValueNames : Rule := uniqueMembers
  (fun
    | .enum values => values.map (·.name)
    | _ => [])
  fun place => s!"Enum value '{place}' can only be defined once."

/-- Fields have distinct names. -/
def uniqueFieldDefinitionNames : Rule := uniqueMembers
  (fun
    | .object _ fields | .interface _ fields => fields.map (·.name)
    | .input fields => fields.map (·.name)
    | _ => [])
  fun place => s!"Field '{place}' can only be defined once."

/-- The arguments of a field or directive have distinct names. -/
def uniqueArgumentDefinitionNames : Rule := fun _ _ => eachDefinition (fun () d =>
  let messages (owner : String) (arguments : List InputDefinition) : List String :=
    (repeatedNames (arguments.map (·.name))).map fun name =>
      s!"Argument '{owner}({name}:)' can only be defined once."
  let ofFields (type : String) (fields : List FieldDefinition) : List String :=
    fields.flatMap fun f => messages s!"{type}.{f.name}" f.arguments
  match d with
  | .directive d => (messages ("@" ++ d.name) d.arguments, ())
  | .type t | .typeExtension t =>
    match t.body with
    | .object _ fields | .interface _ fields => (ofFields t.name fields, ())
    | _ => ([], ())
  | _ => ([], ())) ()

/-! ## Extensions -/

/-- The words for the kind of a type. -/
def TypeBody.kindWords : TypeBody → String
  | .scalar => "scalar"
  | .object .. => "object"
  | .interface .. => "interface"
  | .union _ => "union"
  | .enum _ => "enum"
  | .input _ => "input object"

/-- A type is extended by an extension of its own kind. -/
def possibleTypeExtensions : Rule := fun _ document => eachDefinition (fun () d =>
  match d with
  | .typeExtension t =>
    let defined := document.reverse.findSome? fun
      | .type t' => if t'.name == t.name then some t' else none
      | _ => none
    match defined with
    | some t' =>
      if t'.body.kindWords == t.body.kindWords then ([], ())
      else ([s!"Cannot extend non-{t.body.kindWords} type '{t.name}'."], ())
    | none =>
      ([s!"Cannot extend type '{t.name}' because it is not defined." ++
        didYouMean (suggestions t.name (definedTypes document))], ())
  | _ => ([], ())) ()

end FixtureCheck.GraphQL
