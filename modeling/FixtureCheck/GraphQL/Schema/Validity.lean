import FixtureCheck.GraphQL.Schema.Error
import FixtureCheck.GraphQL.Schema.Standard

/-!
# Valid schemas

A schema is valid if it has a query type, its root types are object types, its names are not reserved, its types have
members, what implements an interface offers what the interface does, and no input object needs itself.
`Schema.errors` lists what is wrong, `Schema.checkValid` fails with the list.
-/

namespace FixtureCheck.GraphQL

namespace Schema

variable (schema : Schema)

/-- The complaint about a reserved name. -/
def nameErrors (name : String) : List String :=
  if name.startsWith "__" then
    [s!"Name '{name}' must not begin with '__', which is reserved by GraphQL introspection."]
  else []

/-- What is wrong with the root types. -/
def rootErrors : List String :=
  let other (label : String) (name : Option String) : List String :=
    match name with
    | some name =>
      if schema.isObject name then []
      else [s!"{label} root type must be Object type if provided, it cannot be {name}."]
    | none => []
  (match schema.query with
    | none => ["Query root type must be provided."]
    | some name =>
      if schema.isObject name then [] else [s!"Query root type must be Object type, it cannot be {name}."]) ++
    other "Mutation" schema.mutation ++ other "Subscription" schema.subscription

/-- What is wrong with the arguments of a field or directive. -/
def argumentErrors (owner : String) (arguments : List InputValue) : List String :=
  arguments.flatMap fun a =>
    nameErrors a.name ++
      if a.isRequired && a.isDeprecated then [s!"Required argument {owner}({a.name}:) cannot be deprecated."] else []

/-- What is wrong with the directives. -/
def directiveErrors : List String :=
  schema.directives.flatMap fun d => nameErrors d.name ++ argumentErrors ("@" ++ d.name) d.arguments

/-- What is wrong with the fields of an object or interface type. -/
def fieldErrors (type : String) (fields : List OutputField) : List String :=
  (if fields.isEmpty then [s!"Type {type} must define one or more fields."] else []) ++
    fields.flatMap fun f => nameErrors f.name ++ argumentErrors s!"{type}.{f.name}" f.arguments

/-! ## Interfaces -/

/-- Where a type does not offer what an interface does. -/
def implementationErrors (type : String) (fields : List OutputField) (interface : String) : List String :=
  ((schema.details? interface).elim [] (·.fields)).flatMap fun wanted =>
    match fields.find? (·.name == wanted.name) with
    | none => [s!"Interface field {interface}.{wanted.name} expected but {type} does not provide it."]
    | some f =>
      (if schema.isSubType f.type wanted.type then []
        else
          [s!"Interface field {interface}.{wanted.name} expects type {wanted.type.text} " ++
            s!"but {type}.{wanted.name} is type {f.type.text}."]) ++
        (wanted.arguments.flatMap fun a =>
          match f.argument? a.name with
          | none =>
            [s!"Interface field argument {interface}.{wanted.name}({a.name}:) expected " ++
              s!"but {type}.{wanted.name} does not provide it."]
          | some b =>
            if a.type == b.type then []
            else
              [s!"Interface field argument {interface}.{wanted.name}({a.name}:) expects type {a.type.text} " ++
                s!"but {type}.{wanted.name}({a.name}:) is type {b.type.text}."]) ++
        f.arguments.filterMap fun b =>
          if b.isRequired && (wanted.argument? b.name).isNone then
            some <| s!"Object field {type}.{wanted.name} includes required argument {b.name} " ++
              s!"that is missing from the Interface field {interface}.{wanted.name}."
          else none

/-- The interfaces of an interface that a type lacks. -/
def ancestorErrors (type : String) (interfaces : List String) (interface : String) : List String :=
  let ancestors := (schema.details? interface).elim [] (·.interfaces)
  (ancestors.filter (!interfaces.contains ·)).map fun ancestor =>
    if ancestor == type then
      s!"Type {type} cannot implement {interface} because it would create a circular reference."
    else s!"Type {type} must implement {ancestor} because it is implemented by {interface}."

/-- What is wrong with the interfaces of a type. -/
def interfaceErrors (type : String) (all : List String) (fields : List OutputField) : List String :=
  go [] all
where
  /-- `seen` holds the interfaces looked at. -/
  go (seen : List String) : List String → List String
    | [] => []
    | interface :: rest =>
      if interface == type then
        s!"Type {type} cannot implement itself because it would create a circular reference." :: go seen rest
      else if seen.contains interface then s!"Type {type} can only implement {interface} once." :: go seen rest
      else
        schema.ancestorErrors type all interface ++ schema.implementationErrors type fields interface ++
          go (interface :: seen) rest

/-! ## Unions, enums and input objects -/

/-- What is wrong with the members of a union type. -/
def memberErrors (type : String) (members : List String) : List String :=
  if members.isEmpty then [s!"Union type {type} must define one or more member types."]
  else
    (members.zipIdx.filter fun (m, i) => (members.take i).contains m).map fun (m, _) =>
      s!"Union type {type} can only include type {m} once."

/-- What is wrong with the values of an enum type. -/
def enumErrors (type : String) (values : List String) : List String :=
  (if values.isEmpty then [s!"Enum type {type} must define one or more values."] else []) ++ values.flatMap nameErrors

/-- What is wrong with the fields of an input object type. -/
def inputErrors (type : String) (fields : List InputValue) (isOneOf : Bool) : List String :=
  (if fields.isEmpty then [s!"Input Object type {type} must define one or more fields."] else []) ++
    fields.flatMap fun f =>
      nameErrors f.name ++
        (if f.isRequired && f.isDeprecated then [s!"Required input field {type}.{f.name} cannot be deprecated."]
          else []) ++
        if isOneOf then
          (if f.type.isNonNull then [s!"OneOf input field {type}.{f.name} must be nullable."] else []) ++
            if f.default?.isSome then [s!"OneOf input field {type}.{f.name} cannot have a default value."] else []
        else []

/-- The complaints about input objects that need themselves, met from a type, and the types entered. `path` leads to the
type: the types entered and not left, each with the field that leads on from it, the last one first. -/
def inputCycles (n : Nat) (path : List (String × String)) (type : String) (entered : List String) :
    List String × List String :=
  match n with
  | 0 => ([], entered)
  | n + 1 =>
    if entered.contains type then ([], entered)
    else
      let step : List String × List String → InputValue → List String × List String := fun (messages, entered) f =>
        match f.type with
        | .nonNull (.named next) =>
          if schema.typeIs (fun d => d matches .input ..) next then
            let path := (type, f.name) :: path
            if path.any (·.1 == next) then
              let fields := ".".intercalate ((path.reverse.dropWhile (·.1 != next)).map (·.2))
              (messages ++ [s!"Cannot reference Input Object '{next}' within itself " ++
                s!"through a series of non-null fields: '{fields}'."], entered)
            else
              let (more, entered) := inputCycles n path next entered
              (messages ++ more, entered)
          else (messages, entered)
        | _ => (messages, entered)
      ((schema.details? type).elim [] (·.inputFields)).foldl step ([], type :: entered)

/-! ## All types -/

/-- What is wrong with types in a row; `entered` holds the input object types searched for cycles. -/
def typeErrors (entered : List String) : List NamedType → List String
  | [] => []
  | t :: rest =>
    let names := if Standard.descriptionNames.contains t.name then [] else nameErrors t.name
    let (messages, entered) := match t.details with
      | .scalar => ([], entered)
      | .object interfaces fields | .interface interfaces fields =>
        (fieldErrors t.name fields ++ schema.interfaceErrors t.name interfaces fields, entered)
      | .union members => (memberErrors t.name members, entered)
      | .enum values => (enumErrors t.name values, entered)
      | .input fields isOneOf =>
        let (cycles, entered) := schema.inputCycles (schema.types.length + 1) [] t.name entered
        (inputErrors t.name fields isOneOf ++ cycles, entered)
    names ++ messages ++ typeErrors entered rest

/-- What is wrong with a schema. -/
def errors : List String := schema.rootErrors ++ schema.directiveErrors ++ schema.typeErrors [] schema.types

/-- Fails if something is wrong with a schema. -/
def checkValid : Except SchemaError Unit :=
  match schema.errors with
  | [] => .ok ()
  | messages => .error (.invalid messages)

end Schema

end FixtureCheck.GraphQL
