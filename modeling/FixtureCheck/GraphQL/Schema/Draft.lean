import FixtureCheck.GraphQL.Literal
import FixtureCheck.GraphQL.Schema.Error
import FixtureCheck.GraphQL.Schema.Standard

/-!
# Drafts of schemas

A draft lists the types that a document or description defines. The parts of a type that refer to other types may turn
out to be wrong, which counts only when they are looked at. `Draft.schema` looks at them: it collects the types in the
order in which they refer to each other and fails at the first wrong part it meets.
-/

namespace FixtureCheck.GraphQL

/-- The details of a type whose parts may be wrong. -/
inductive DraftDetails where
  | scalar
  | object (interfaces : Except SchemaError (List String)) (fields : Except SchemaError (List OutputField))
  | interface (interfaces : Except SchemaError (List String)) (fields : Except SchemaError (List OutputField))
  | union (members : Except SchemaError (List String))
  | enum (values : List String)
  | input (fields : Except SchemaError (List InputValue)) (isOneOf : Bool)
  deriving Inhabited

namespace DraftDetails

/-- The details with their parts looked at. -/
def details : DraftDetails → Except SchemaError TypeDetails
  | scalar => .ok .scalar
  | object interfaces fields => return .object (← interfaces) (← fields)
  | interface interfaces fields => return .interface (← interfaces) (← fields)
  | union members => return .union (← members)
  | enum values => .ok (.enum values)
  | input fields isOneOf => return .input (← fields) isOneOf

/-- Details without wrong parts. -/
def ofDetails : TypeDetails → DraftDetails
  | .scalar => scalar
  | .object interfaces fields => object (.ok interfaces) (.ok fields)
  | .interface interfaces fields => interface (.ok interfaces) (.ok fields)
  | .union members => union (.ok members)
  | .enum values => enum values
  | .input fields isOneOf => input (.ok fields) isOneOf

/-- Can input values have the type? -/
def isInput : DraftDetails → Bool
  | scalar | enum _ | input .. => true
  | _ => false

/-- Is it an object type? -/
def isObject : DraftDetails → Bool
  | object .. => true
  | _ => false

/-- What a check of a literal has to know about the type. -/
def literalType (name : String) : DraftDetails → LiteralType SchemaError
  | scalar => .leaf fun v => (scalarMisfit? name v).isNone
  | enum values => .leaf fun v => (enumMisfit? name values v).isNone
  | input fields isOneOf => .input fields isOneOf
  | _ => .other (.defaultNotInput name)

end DraftDetails

/-- A draft of a schema; `types` keeps the order in which the types are defined. -/
structure Draft where
  types : List (String × DraftDetails)
  query : Option String
  mutation : Option String
  subscription : Option String
  directives : List DirectiveType

/-- The details of a type by name; no draft can change the standard types. -/
def draftDetails? (types : List (String × DraftDetails)) (name : String) : Option DraftDetails :=
  match Standard.type? name with
  | some t => some (.ofDetails t.details)
  | none => types.lookup name

/-! ## Collecting types -/

/-- The names collected so far; `ahead` holds those that will come in their own turn. -/
structure Collection where
  ahead : List String
  names : List String

section

variable (types : List (String × DraftDetails))

/-- Collects a type and the types it refers to. -/
def collectParts (n : Nat) (state : Collection) (name : String) : Except SchemaError Collection :=
  match n with
  | 0 => .ok state
  | n + 1 => do
    let state := { state with names := state.names ++ [name] }
    let collect (state : Collection) (name : String) : Except SchemaError Collection :=
      if state.names.contains name || state.ahead.contains name then .ok state else collectParts n state name
    match draftDetails? types name with
    | some (.union members) => (← members).foldlM collect state
    | some (.object interfaces fields) | some (.interface interfaces fields) =>
      let state ← (← interfaces).foldlM collect state
      (← fields).foldlM (fun state f => do
        let state ← collect state f.type.base
        f.arguments.foldlM (fun state a => collect state a.type.base) state) state
    | some (.input fields _) => (← fields).foldlM (fun state f => collect state f.type.base) state
    | _ => return state

/-- Collects a type and the types it refers to, unless it is already there or will come in its own turn. -/
def collectType (n : Nat) (state : Collection) (name : String) : Except SchemaError Collection :=
  if state.names.contains name || state.ahead.contains name then .ok state else collectParts types n state name

/-- Collects the types of a draft, each in its turn. -/
def collectAll (n : Nat) (state : Collection) : List String → Except SchemaError Collection
  | [] => .ok state
  | name :: rest => do
    let state ← collectParts types n { state with ahead := rest } name
    collectAll n state rest

end

/-- The schema that a draft describes. -/
def Draft.schema (draft : Draft) : Except SchemaError Schema := do
  let bound := draft.types.length + Standard.types.length + 1
  let own := draft.types.map (·.1)
  let state ← collectAll draft.types bound ⟨own, []⟩ own
  let roots := draft.query.toList ++ draft.mutation.toList ++ draft.subscription.toList
  let arguments := draft.directives.flatMap fun d => d.arguments.map (·.type.base)
  let state ← (roots ++ arguments ++ ["__Schema"]).foldlM (collectType draft.types bound) state
  let types ← state.names.filterMapM fun name =>
    match draftDetails? draft.types name with
    | some d => return some ⟨name, ← d.details⟩
    | none => return none
  return ⟨types, draft.query, draft.mutation, draft.subscription, draft.directives⟩

end FixtureCheck.GraphQL
