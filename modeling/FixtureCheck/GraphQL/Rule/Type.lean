import FixtureCheck.GraphQL.Rule.Basic
import FixtureCheck.GraphQL.Spread
import FixtureCheck.GraphQL.Schema.Standard
import FixtureCheck.Text.Suggestion

/-!
# Rules about types and fields

Types and fields are known, fragments are on types with fields, variables have input types, exactly the fields with
parts have selections, and a fragment can apply where it is spread.
-/

namespace FixtureCheck.GraphQL

open Text

/-- The names of the types that a document defines. -/
def definedTypes (document : Document) : List String :=
  document.filterMap fun
    | .type t => some t.name
    | _ => none

/-- The names of all standard types. -/
def standardNames : List String := Standard.types.map (·.name)

/-- The types that a document names are known. -/
def knownTypeNames : Rule := fun schema document =>
  let known := schema.types.map (·.name) ++ definedTypes document
  eachEntry fun visit =>
    match visit.node with
    | .typeName name =>
      if known.contains name || visit.inTypeSystem && standardNames.contains name then []
      else
        let options := if visit.inTypeSystem then standardNames ++ known else known
        [s!"Unknown type '{name}'." ++ didYouMean (suggestions name options)]
    | _ => []

/-- Fragments are on types with fields. -/
def fragmentsOnCompositeTypes : Rule := fun schema _ => eachEntry fun visit =>
  let isFlat (name : String) : Bool := schema.typeIs (!·.isComposite) name
  match visit.node with
  | .inline (some name) _ _ =>
    if isFlat name then [s!"Fragment cannot condition on non composite type '{name}'."] else []
  | .definition (.fragment f) =>
    if isFlat f.condition then [s!"Fragment '{f.name}' cannot condition on non composite type '{f.condition}'."] else []
  | _ => []

/-- Variables have input types. -/
def variablesAreInputTypes : Rule := fun schema _ => eachEntry fun visit =>
  match visit.node with
  | .variableDefinition v =>
    if schema.typeIs (!·.isInput) v.type.base then
      [s!"Variable '${v.name}' cannot be non-input type '{v.type.text}'."]
    else []
  | _ => []

/-- Exactly the fields with parts have selections. -/
def scalarLeafs : Rule := fun schema _ => eachEntry fun visit =>
  match visit.node, visit.scope.type with
  | .field f selections, some type =>
    if schema.isLeaf type.base then
      if selections.isEmpty then []
      else [s!"Field '{f.name}' must not have a selection since type '{type.text}' has no subfields."]
    else if selections.isEmpty then
      [s!"Field '{f.name}' of type '{type.text}' must have a selection of subfields. " ++
        s!"Did you mean '{f.name} \x7b ... \x7d'?"]
    else []
  | _, _ => []

/-! ## Unknown fields -/

/-- Has the type under a name a field of that name? -/
def hasField (schema : Schema) (type field : String) : Bool :=
  schema.typeIs (fun details => details.fields.any (·.name == field)) type

/-- The object and interface types behind an abstract type that have a field, each with the number of such object
types. -/
def typesWithField (schema : Schema) (abstract field : String) : List (String × Nat) :=
  let objects := (schema.membersOf abstract).filter (hasField schema · field)
  let interfaces := objects.flatMap fun object =>
    match schema.details? object with
    | some details => details.interfaces.filter (hasField schema · field)
    | none => []
  let names := objects ++ interfaces
  names.eraseDups.map fun name => (name, names.count name)

/-- The types of `typesWithField`, the most common first, interfaces before what implements them. -/
def suggestedTypes (schema : Schema) (abstract field : String) : List String :=
  let before : String × Nat → String × Nat → Bool := fun (a, m) (b, n) =>
    if m != n then m > n
    else if schema.isInterface a && schema.isSubTypeName a b then true
    else if schema.isInterface b && schema.isSubTypeName b a then false
    else naturalCompare a b != .gt
  if schema.isAbstract abstract then ((typesWithField schema abstract field).mergeSort before).map (·.1) else []

/-- Selected fields are known. -/
def fieldsOnCorrectType : Rule := fun schema _ => eachEntry fun visit =>
  match visit.node, visit.scope.parent, visit.scope.field with
  | .field f _, some parent, none =>
    let hint := didYouMean (suggestedTypes schema parent f.name) "to use an inline fragment on"
    let hint :=
      if !hint.isEmpty then hint
      else
        let fields := (schema.details? parent).elim [] (·.fields)
        didYouMean (suggestions f.name (fields.map (·.name)))
    [s!"Cannot query field '{f.name}' on type '{parent}'." ++ hint]
  | _, _, _ => []

/-! ## Fragments where they are spread -/

/-- Can an object have both types? -/
def typesOverlap (schema : Schema) (a b : String) : Bool :=
  a == b ||
    if schema.isAbstract a then
      if schema.isAbstract b then (schema.membersOf a).any (schema.isSubTypeName b) else schema.isSubTypeName a b
    else schema.isAbstract b && schema.isSubTypeName b a

/-- A fragment can apply where it is spread. -/
def possibleFragmentSpreads : Rule := fun schema document => eachEntry fun visit =>
  let clash (label type : String) : List String :=
    match visit.scope.parent with
    | some parent =>
      if schema.isComposite type && !typesOverlap schema type parent then
        [s!"Fragment {label}cannot be spread here as objects of type '{parent}' can never be of type '{type}'."]
      else []
    | none => []
  match visit.node with
  | .inline .. => (visit.scope.type.map (·.text)).elim [] (clash "")
  | .spread name _ => (fragment? document name).elim [] fun f => clash (inQuotes name ++ " ") f.condition
  | _ => []

end FixtureCheck.GraphQL
