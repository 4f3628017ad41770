import FixtureCheck.GraphQL.DirectiveValue
import FixtureCheck.GraphQL.Rule.Basic
import FixtureCheck.GraphQL.Spread

/-!
# Rules about operations

Only operations and fragments are executable, operations have distinct names, an operation without a name stands alone,
and a subscription selects one field. To see the fields of a subscription, `@skip` and `@include` are taken into
account; where they depend on a variable the rule cannot go on, which `subscriptionMisuse?` reports.
-/

namespace FixtureCheck.GraphQL

/-- How a message refers to a definition of a type system. -/
def Definition.label : Definition → String
  | .schema _ | .schemaExtension _ => "schema"
  | .type t | .typeExtension t => Text.inQuotes t.name
  | .directive d => Text.inQuotes d.name
  | .operation o => Text.inQuotes (o.name.getD "")
  | .fragment f => Text.inQuotes f.name

/-- Definitions are executable. -/
def executableDefinitions : Rule := fun _ _ => eachEntry fun visit =>
  match visit.node with
  | .document definitions =>
    (definitions.filter (·.isTypeSystem)).map fun d => s!"The {d.label} definition is not executable."
  | _ => []

/-- Operations have distinct names. -/
def uniqueOperationNames : Rule := fun _ _ =>
  repeats (fun visit => match visit.node with
    | .definition (.operation o) => o.name
    | _ => none)
    fun name => s!"There can be only one operation named '{name}'."

/-- An operation without a name is the only one. -/
def loneAnonymousOperation : Rule := fun _ document => eachEntry fun visit =>
  match visit.node with
  | .definition (.operation o) =>
    if o.name.isNone && (operations document).length > 1 then
      ["This anonymous operation must be the only defined operation."]
    else []
  | _ => []

/-! ## Subscriptions -/

/-- Collected fields: each response key with the name of its first field, and the fragments already visited. -/
structure Collected where
  fields : List (String × String) := []
  visited : List String := []

/-- Takes up a field. -/
def Collected.add (collected : Collected) (field : Field) : Collected :=
  if collected.fields.any (·.1 == field.key) then collected
  else { collected with fields := collected.fields ++ [(field.key, field.name)] }

/-- Does a type condition hold of the objects of a type? -/
def conditionHolds (schema : Schema) (condition : Option String) (type : String) : Bool :=
  match condition with
  | none => true
  | some name => name == type && (schema.type? name).isSome || schema.isSubTypeName name type

mutual

/-- The fields that a selection set collects for an object type, through at most `n` fragments within each other. -/
def collectFields (schema : Schema) (document : Document) (type : String) (n : Nat) (selections : List Selection)
    (collected : Collected) : Except ArgumentMisuse Collected :=
  match n with
  | 0 => .ok collected
  | n + 1 => selections.foldlM (collectSelection schema document type n) collected
termination_by (n, 0)

/-- The fields that a selection collects. -/
def collectSelection (schema : Schema) (document : Document) (type : String) (n : Nat) (collected : Collected)
    (selection : Selection) : Except ArgumentMisuse Collected :=
  match selection with
  | .field field _ => do
    if ← isIncluded field.directives then return collected.add field else return collected
  | .inline condition directives inner => do
    if (← isIncluded directives) && conditionHolds schema condition type then
      inner.attach.foldlM (fun c ⟨s, _⟩ => collectSelection schema document type n c s) collected
    else return collected
  | .spread name directives => do
    if collected.visited.contains name then return collected
    if !(← isIncluded directives) then return collected
    let collected := { collected with visited := name :: collected.visited }
    match fragment? document name with
    | none => return collected
    | some f =>
      if conditionHolds schema (some f.condition) type then
        collectFields schema document type n f.selections collected
      else return collected
termination_by (n, sizeOf selection)

end

/-- The fields at the top of a subscription. -/
def subscriptionFields (schema : Schema) (document : Document) (o : Operation) :
    Except ArgumentMisuse (List (String × String)) :=
  match o.kind, schema.subscription with
  | .subscription, some type => do
    return (← collectFields schema document type ((fragments document).length + 1) o.selections {}).fields
  | _, _ => .ok []

/-- A subscription selects one field, and none about the schema. -/
def singleFieldSubscriptions : Rule := fun schema document => eachEntry fun visit =>
  match visit.node with
  | .definition (.operation o) =>
    match subscriptionFields schema document o with
    | .error _ => []
    | .ok fields =>
      let label := match o.name with
        | some name => s!"Subscription '{name}'"
        | none => "Anonymous Subscription"
      (if fields.length > 1 then [label ++ " must select only one top level field."] else []) ++
        (fields.filter fun (_, name) => name.startsWith "__").map fun _ =>
          label ++ " must not select an introspection top level field."
  | _ => []

/-- The first subscription whose fields cannot be told, with its place in the walk. -/
def subscriptionMisuse? (schema : Schema) (document : Document) : Option (Nat × ArgumentMisuse) :=
  (visits schema document).zipIdx.findSome? fun (visit, time) =>
    match visit.entering, visit.node with
    | true, .definition (.operation o) =>
      match subscriptionFields schema document o with
      | .error misuse => some (time, misuse)
      | .ok _ => none
    | _, _ => none

end FixtureCheck.GraphQL
