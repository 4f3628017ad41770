import FixtureCheck.GraphQL.Name
import FixtureCheck.GraphQL.Schema.Draft
import FixtureCheck.GraphQL.Syntax.Parser

/-!
# Schemas from descriptions

A server describes its schema as a JSON value under `__schema`. `schemaOfDescription` takes the answer to such a
question, with or without the `data` around it, and builds the schema. Descriptions come from outside, so every part is
checked as it is read; what a description says about standard types is ignored.
-/

namespace FixtureCheck.GraphQL

namespace Description

/-- Reading of a description. -/
abbrev Reading := Except SchemaError

/-- The value under a key that has to be there. -/
def entry (key : String) (value : Json) : Reading Json := (value.entry key).mapError .access

/-- The value under a key; null if there is none. -/
def entry? (key : String) (value : Json) : Reading Json := (value.entry? key).mapError .access

/-- The parts of a value. -/
def items (value : Json) : Reading (List Json) := value.items.mapError .access

/-- Fails with a message. -/
def refuse {α : Type} (message : String) : Reading α := .error (.description message)

/-- Fails with a message about a part of a description that lacks something. -/
def lacking {α : Type} (what : String) (shown : String) : Reading α :=
  refuse s!"Introspection result missing {what}: {shown}."

/-- A description text is absent or a text. -/
def checkText (key message : String) (value : Json) : Reading Unit := do
  if (← entry? key value).isTextOrNull then return () else refuse message

/-- A value that names something. -/
def name (value : Json) : Reading String :=
  match value with
  | .null => refuse "Must provide name."
  | .str s =>
    match nameError? s with
    | some e => .error (.plain e)
    | none => .ok s
  | _ => refuse "Expected name to be a string."

/-- What a table holds: a later entry takes the place of an earlier one with the same key. -/
def table {α : Type} (entries : List (Json × α)) : List (Json × α) :=
  entries.foldl insert []
where
  /-- Puts an entry into a table. -/
  insert (done : List (Json × α)) (new : Json × α) : List (Json × α) :=
    let isKey (key : Json) : Bool :=
      match key, new.1 with
      | .str a, .str b => a == b
      | _, _ => false
    if done.any (isKey ·.1) then done.map fun old => if isKey old.1 then (old.1, new.2) else old else done ++ [new]

/-- A table with an entry for each part of a value, by the name of the part. -/
def tableOf {α : Type} (make : Json → Reading α) (parts : Json) : Reading (List (Json × α)) := do
  let entries ← (← items parts).mapM fun part => do
    let key ← entry "name" part
    let value ← make part
    key.checkKey.mapError .access
    return (key, value)
  return table entries

/-- The names of a table's entries; `notTexts` is the failure if one of them is no text. -/
def named {α : Type} (notTexts : SchemaError) (entries : List (Json × α)) : Reading (List (String × α)) := do
  if entries.any fun (key, _) => !(key matches .str _) then throw notTexts
  entries.mapM fun (key, value) => return (← name key, value)

/-! ## References to types -/

/-- What a description lists: its types by name, the last one for each name. -/
structure Listing where
  types : List (String × Json)

/-- The kind of a type in the listing. -/
def Listing.kind? (listing : Listing) (type : String) : Option String :=
  match Standard.type? type with
  | some t =>
    match t.details with
    | .scalar => some "SCALAR"
    | .enum _ => some "ENUM"
    | _ => some "OBJECT"
  | none =>
    match (listing.types.lookup type).bind (Json.field? "kind") with
    | some (.str kind) => some kind
    | _ => none

/-- Is the kind of a type among some kinds? -/
def Listing.isOf (listing : Listing) (kinds : List String) (type : TypeRef) : Bool :=
  (listing.kind? type.base).any kinds.contains

section

variable (listing : Listing)

/-- The type that a reference names. -/
def namedType (reference : Json) : Reading TypeRef := do
  let key ← entry? "name" reference
  if key.isEmptyLike then refuse s!"Unknown type reference: {reference.preview}."
  key.checkKey.mapError .access
  let known := match key with
    | .str s => if (listing.types.lookup s).isSome then some s else none
    | _ => none
  match known with
  | some s => return .named s
  | none =>
    refuse <| s!"Invalid or incomplete schema, unknown type: {key.asText}. " ++
      "Ensure that a full introspection query is used in order to build a client schema."

/-- The type that a reference describes. -/
def typeRef (reference : Json) : Reading TypeRef := do
  match reference with
  | .obj entries =>
    let kind := Json.lookup entries "kind"
    let isKind (name : String) : Bool := match kind with
      | some (.str s) => s == name
      | _ => false
    let inner (wrap : TypeRef → Reading TypeRef) : Reading TypeRef :=
      match entries.attach.find? (·.1.1 == "ofType") with
      | none => refuse "Decorated type deeper than introspection query."
      | some ⟨(_, item), _mem⟩ =>
        if item.isEmptyLike then refuse "Decorated type deeper than introspection query."
        else do wrap (← typeRef item)
    if isKind "LIST" then inner fun t => return .list t
    else if isKind "NON_NULL" then
      inner fun t =>
        if t.isNonNull then refuse s!"Expected {t.text} to be a GraphQL nullable type." else return .nonNull t
    else namedType listing (.obj entries)
  | other => namedType listing other
termination_by sizeOf reference
decreasing_by
  have := List.sizeOf_lt_of_mem _mem
  simp at this ⊢
  omega

/-- The named type of a kind that a reference describes. -/
def typeOfKind (kind label : String) (reference : Json) : Reading String := do
  let t ← typeRef listing reference
  match t with
  | .named type =>
    if listing.kind? type == some kind then return type else refuse s!"Expected {type} to be a GraphQL {label} type."
  | _ => refuse s!"Expected {t.text} to be a GraphQL {label} type."

/-! ## Arguments and input fields -/

/-- The default a description gives, if it fits. -/
def default? (typeOf : String → LiteralType SchemaError) (type : TypeRef) (text : Json) : Reading (Option Value) :=
  match text with
  | .null => return none
  | .str s => do
    let v ← (parseValue s).mapError .fault
    if ← fits typeOf type v then return some v else return none
  | other => .error (.access (.noLength other.kindName))

/-- An argument or input field; `label` is the word for it. -/
def inputValue (typeOf : String → LiteralType SchemaError) (label owner : String) (part : Json) :
    Reading InputValue := do
  let t ← typeRef listing (← entry "type" part)
  if !listing.isOf ["SCALAR", "ENUM", "INPUT_OBJECT"] t then
    refuse s!"Introspection must provide input type for {label}, but received: {t.text}."
  let value ← default? typeOf t (← entry? "defaultValue" part)
  checkText "description" s!"{owner} description must be a string." part
  checkText "deprecationReason" s!"{owner} deprecation reason must be a string." part
  return ⟨"", t, value, !(← entry? "deprecationReason" part) matches .null⟩

/-- Values with their names. -/
def withNames (entries : List (String × InputValue)) : List InputValue :=
  entries.map fun (key, v) => { v with name := key }

/-- The values of an enum type. -/
def enumValues (type : Json) : Reading (List String) := do
  let entries ← tableOf (fun part => do
    checkText "description" "The description of the enum value must be a string." part
    checkText "deprecationReason" "The deprecation reason for the enum value must be a string." part)
    (← entry "enumValues" type)
  let _ ← name (← entry "name" type)
  checkText "description" "The description must be a string." type
  entries.mapM fun (key, _) => do
    let value ← name key
    match enumValueNameError? value with
    | some e => .error (.plain e)
    | none => return value

mutual

/-- The fields of an input object type, with defaults nested at most `n` types deep. -/
def inputFields (n : Nat) (type : String) (parts : Json) : Reading (List InputValue) :=
  match n with
  | 0 => .error .endlessDefault
  | n + 1 => do
    let entries ← (tableOf (inputValue listing (literalType n) "input fields" "Input field") parts).mapError
      (.unresolved type .fields)
    return withNames
      (← named (.description s!"{type} fields must be specified as a dict with field names as keys.") entries)
termination_by (n, 0)

/-- What a check of a literal has to know about a type. -/
def literalType (n : Nat) (type : String) : LiteralType SchemaError :=
  match Standard.type? type, listing.types.lookup type with
  | some t, _ => (DraftDetails.ofDetails t.details).literalType type
  | none, some description =>
    match listing.kind? type with
    | some "SCALAR" => DraftDetails.scalar.literalType type
    | some "ENUM" => (DraftDetails.enum ((enumValues description).toOption.getD [])).literalType type
    | some "INPUT_OBJECT" =>
      let parts := (description.field? "inputFields").getD .null
      .input (inputFields n type parts) (!((description.field? "isOneOf").getD .null).isEmptyLike)
    | _ => .other (.defaultNotInput type)
  | none, none => .other (.defaultNotInput type)
termination_by (n, 1)

end

/-- The number of types that defaults can be nested in. -/
def bound : Nat := listing.types.length + 1

/-- The arguments of a field or directive. -/
def arguments (notTexts : String) (parts : Json) : Reading (List InputValue) := do
  let entries ← tableOf (inputValue listing (literalType listing (bound listing)) "arguments" "Argument") parts
  return withNames (← named (.description notTexts) entries)

/-! ## Types -/

/-- A field of an object or interface type. -/
def outputField (part : Json) : Reading OutputField := do
  let t ← typeRef listing (← entry "type" part)
  if listing.isOf ["INPUT_OBJECT"] t then
    refuse s!"Introspection must provide output type for fields, but received: {t.text}."
  let parts ← entry? "args" part
  if parts matches .null then lacking "field args" part.preview
  let arguments ← arguments listing "Field args must be a dict with argument names as keys." parts
  checkText "description" "The description must be a string." part
  checkText "deprecationReason" "The deprecation reason must be a string." part
  return ⟨"", t, arguments⟩

/-- The fields of an object or interface type. -/
def outputFields (type : String) (description : Json) : Reading (List OutputField) := do
  let entries ← (do
    let parts ← entry? "fields" description
    if parts matches .null then lacking "fields" description.display
    tableOf (outputField listing) parts).mapError (.unresolved type .fields)
  let fields ← named (.description s!"{type} fields must be specified as a dict with field names as keys.") entries
  return fields.map fun (key, f) => { f with name := key }

/-- The interfaces of an object or interface type. -/
def interfaces (type : String) (description : Json) : Reading (List String) :=
  (do
    let parts ← entry? "interfaces" description
    if parts matches .null then
      if (← entry "kind" description) matches .str "INTERFACE" then return []
      lacking "interfaces" description.preview
    (← items parts).mapM (typeOfKind listing "INTERFACE" "Interface")).mapError (.unresolved type .interfaces)

/-- The members of a union type. -/
def members (type : String) (parts : Json) : Reading (List String) :=
  (do (← items parts).mapM (typeOfKind listing "OBJECT" "Object")).mapError (.unresolved type .types)

end

/-- The name of a type that is described; standard names are taken by the standard types. -/
def typeName (description : Json) : Reading String := do
  let key ← entry "name" description
  key.checkKey.mapError .access
  if let .str s := key then
    if (Standard.type? s).isSome then refuse s!"Redefinition of reserved type {Text.quoted s}"
  let type ← name key
  checkText "description" "The description must be a string." description
  return type

/-- What is known about a type when it is met: it is made later, when all names are known. -/
abbrev Promise := Listing → Nat → DraftDetails

/-- The promise of a type that is described. -/
def promise (description : Json) : Reading Promise := do
  let key ← entry "name" description
  let standard := match key with
    | .str s => Standard.type? s
    | _ => none
  let reserved (t : NamedType) : Promise := fun _ _ => .ofDetails t.details
  let incomplete : Reading Promise := refuse <|
    "Invalid or incomplete introspection result. Ensure that a full introspection query " ++
      s!"is used in order to build a client schema: {description.preview}."
  match description.field? "kind" with
  | some (.str "SCALAR") =>
    if let some t := standard then return reserved t
    let type ← typeName description
    let url ← entry? "specifiedByURL" description
    if !url.isTextOrNull then
      refuse s!"{type} must provide 'specified_by_url' as a string, but got: {url.preview}."
    return fun _ _ => .scalar
  | some (.str "OBJECT") =>
    if let some t := standard then return reserved t
    let type ← typeName description
    return fun listing _ => .object (interfaces listing type description) (outputFields listing type description)
  | some (.str "INTERFACE") =>
    let type ← typeName description
    return fun listing _ => .interface (interfaces listing type description) (outputFields listing type description)
  | some (.str "UNION") =>
    let parts ← entry? "possibleTypes" description
    if parts matches .null then lacking "possibleTypes" description.preview
    let type ← typeName description
    return fun listing _ => .union (members listing type parts)
  | some (.str "ENUM") =>
    if (← entry? "enumValues" description) matches .null then lacking "enumValues" description.preview
    if let some t := standard then return reserved t
    key.checkKey.mapError .access
    let values ← enumValues description
    return fun _ _ => .enum values
  | some (.str "INPUT_OBJECT") =>
    let parts ← entry? "inputFields" description
    if parts matches .null then lacking "inputFields" description.preview
    let type ← typeName description
    let isOneOf := !(← entry? "isOneOf" description).isEmptyLike
    return fun listing n => .input (inputFields listing n type parts) isOneOf
  | some kind => do
    kind.checkKey.mapError .access
    incomplete
  | none => incomplete

/-! ## Directives and the schema -/

/-- A directive that is described. -/
def directive (listing : Listing) (description : Json) : Reading DirectiveType := do
  let parts ← entry? "args" description
  if parts matches .null then lacking "directive args" description.preview
  let places ← entry? "locations" description
  if places matches .null then lacking "directive locations" description.preview
  let key ← entry "name" description
  let isRepeatable := (description.field? "isRepeatable").getD (.bool false)
  let places ← items places
  let table ← tableOf (inputValue listing (literalType listing (bound listing)) "arguments" "Argument") parts
  let directiveName ← name key
  let locations ← places.mapM fun
    | .str place =>
      if directiveLocations.contains place then return place
      else refuse s!"{directiveName} locations must be specified as a collection of DirectiveLocation enum values."
    | _ => refuse s!"{directiveName} locations must be specified as a collection of DirectiveLocation enum values."
  let arguments ← named (.description s!"{directiveName} args must be a dict with argument names as keys.") table
  let isRepeatable ← match isRepeatable with
    | .bool b => pure b
    | _ => refuse s!"{directiveName} is_repeatable flag must be True or False."
  checkText "description" s!"{directiveName} description must be a string." description
  return ⟨directiveName, withNames arguments, isRepeatable, locations⟩

/-- The root type that is described under a key. -/
def root? (listing : Listing) (key : String) (description : Json) : Reading (Option String) := do
  match ← entry? key description with
  | .null => return none
  | reference => return some (← typeOfKind listing "OBJECT" "Object" reference)

/-- The schema that a description describes. -/
def schema (description : Json) : Reading Schema := do
  let promises ← tableOf (fun part => do return (part, ← promise part)) (← entry "types" description)
  let promises ← named (.description "Expected name to be a string.") promises
  let listing : Listing := ⟨promises.map fun (key, part, _) => (key, part)⟩
  let types := promises.map fun (key, _, promise) => (key, promise listing (bound listing))
  let query ← root? listing "queryType" description
  let mutation ← root? listing "mutationType" description
  let subscription ← root? listing "subscriptionType" description
  let parts ← entry? "directives" description
  let directives ← if parts.isEmptyLike then pure [] else do (← items parts).mapM (directive listing)
  checkText "description" "Schema description must be a string." description
  Draft.schema ⟨types, query, mutation, subscription, directives⟩

/-- The part of an answer that holds the description. -/
def unwrap (answer : Json) : Reading Json := do
  if ← (answer.holds "__schema").mapError .access then return answer
  if ← (answer.holds "data").mapError .access then
    let data ← entry "data" answer
    if ← (data.holds "__schema").mapError .access then return data
  return answer

end Description

/-- The schema that an answer describes. -/
def schemaOfDescription (answer : Json) : Except SchemaError Schema := do
  let data ← Description.unwrap answer
  match data.field? "__schema" with
  | some (.obj entries) => Description.schema (.obj entries)
  | _ =>
    Description.refuse <|
      "Invalid or incomplete introspection result. Ensure that you are passing the 'data' attribute of an " ++
        s!"introspection response and no 'errors' were returned alongside: {data.preview}."

end FixtureCheck.GraphQL
