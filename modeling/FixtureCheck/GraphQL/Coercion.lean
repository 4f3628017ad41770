import FixtureCheck.GraphQL.Literal
import FixtureCheck.Json.Display

/-!
# JSON values as input values

`misfits` lists where a JSON value is no value of an input type: each misfit has the position it is about and a cause.
Lists accept a single item, a field that is absent takes its default, and an input object has no further fields. A value
fits a type if there are no misfits.
-/

namespace FixtureCheck.GraphQL

/-- Why a JSON value is no value of a type. -/
inductive MisfitCause where
  | isNull (type : TypeRef)
  | notObject (type : String)
  | missingField (field : String) (type : TypeRef)
  | unknownField (field type : String) (known : List String)
  | notOneField (type : String)
  | nullField (field : String)
  | notInteger (value : Json)
  | outOfRange (value : Json)
  | notNumeric (value : Json)
  | tooLarge
  | notText (value : Json)
  | notBoolean (value : Json)
  | notIdentifier (value : Json)
  | unknownMember (enum : String) (members : List String) (text : String)
  | notMember (enum : String) (members : List String) (value : Json)
  deriving Repr

/-- The message about a cause. -/
def MisfitCause.message : MisfitCause → String
  | isNull type => s!"Expected non-nullable type '{type.text}' not to be None."
  | notObject type => s!"Expected type '{type}' to be a mapping."
  | missingField field type => s!"Field '{field}' of required type '{type.text}' was not provided."
  | unknownField field type known =>
    s!"Field '{field}' is not defined by type '{type}'." ++ Text.didYouMean (Text.suggestions field known)
  | notOneField type => s!"Exactly one key must be specified for OneOf type '{type}'."
  | nullField field => s!"Field '{field}' must be non-null."
  | notInteger v => "Int cannot represent non-integer value: " ++ v.preview
  | outOfRange v => "Int cannot represent non 32-bit signed integer value: " ++ v.preview
  | notNumeric v => "Float cannot represent non numeric value: " ++ v.preview
  | tooLarge => "Expected type 'Float'. int too large to convert to float"
  | notText v => "String cannot represent a non string value: " ++ v.preview
  | notBoolean v => "Boolean cannot represent a non boolean value: " ++ v.preview
  | notIdentifier v => "ID cannot represent value: " ++ v.preview
  | unknownMember enum members text =>
    s!"Value '{text}' does not exist in '{enum}' enum." ++ didYouMeanMember members text
  | notMember enum members v =>
    s!"Enum '{enum}' cannot represent non-string value: {v.preview}." ++ didYouMeanMember members v.preview

/-- A place where a value does not fit; the path leads to it from the value. -/
structure Misfit where
  path : Json.Path
  cause : MisfitCause
  deriving Repr

/-- A step as it stands in a path's text. -/
def stepText : Json.Step → String
  | .key name => name
  | .index i => toString i

/-- A path in words: its steps between dots. -/
def pathText (path : Json.Path) : String := ".".intercalate (path.map stepText)

/-- The message about a misfit and its place. -/
def Misfit.message (m : Misfit) : String := m.cause.message ++ " At \"" ++ pathText m.path ++ "\""

/-! ## Leaves -/

/-- The integer that a number is. -/
def integer? : Json → Option Int
  | .int n => some n
  | .float x => x.toInt?
  | _ => none

/-- Why a value is no value of a scalar type; a scalar type that is not a standard one has all values. -/
def scalarCause? (name : String) (value : Json) : Option MisfitCause :=
  match name with
  | "Int" =>
    match integer? value with
    | some n => if isInt32 n then none else some (.outOfRange value)
    | none => some (.notInteger value)
  | "Float" =>
    match value with
    | .int n => if (Binary64.ofInt? n).isSome then none else some .tooLarge
    | .float x => if x.isFinite then none else some (.notNumeric value)
    | _ => some (.notNumeric value)
  | "String" => if value matches .str _ then none else some (.notText value)
  | "Boolean" => if value matches .bool _ then none else some (.notBoolean value)
  | "ID" => if value matches .str _ || (integer? value).isSome then none else some (.notIdentifier value)
  | _ => none

/-- Why a value is no value of an enum type. -/
def enumCause? (name : String) (members : List String) (value : Json) : Option MisfitCause :=
  match value with
  | .str text => if members.contains text then none else some (.unknownMember name members text)
  | _ => some (.notMember name members value)

/-- Why a value is no value of a named type without parts. -/
def leafCause? (schema : Schema) (name : String) (value : Json) : Option MisfitCause :=
  match schema.details? name with
  | some .scalar => scalarCause? name value
  | some (.enum members) => enumCause? name members value
  | some (.input ..) => some (.notObject name)
  | _ => none

/-! ## Input objects -/

/-- Is the value null? -/
def isNullValue : Json → Bool
  | .null => true
  | _ => false

/-- The fields that are given or have a default, each with the flag whether its value is null. -/
def givenFields (fields : List InputValue) (entries : List (String × Json)) : List (String × Bool) :=
  fields.filterMap fun f =>
    match Json.lookup entries f.name, f.default? with
    | some v, _ => some (f.name, isNullValue v && !f.type.isNonNull)
    | none, some d => some (f.name, d.isNull)
    | none, none => none

/-- What is wrong with an object as a whole: fields it should not have, or too many or too few. -/
def objectMisfits (path : Json.Path) (type : String) (fields : List InputValue) (isOneOf : Bool)
    (entries : List (String × Json)) : List Misfit :=
  let known := fields.map (·.name)
  let unknown := entries.filterMap fun (key, _) =>
    if known.contains key then none else some ⟨path, .unknownField key type known⟩
  let choice : List Misfit :=
    if isOneOf then
      match givenFields fields entries with
      | [(key, isNull)] => if isNull then [⟨path ++ [.key key], .nullField key⟩] else []
      | _ => [⟨path, .notOneField type⟩]
    else []
  unknown ++ choice

/-- Where a value does not fit a type; `path` leads to the value. -/
def misfitsAt (schema : Schema) (path : Json.Path) (type : TypeRef) (value : Json) : List Misfit :=
  match type with
  | .nonNull t => if isNullValue value then [⟨path, .isNull (.nonNull t)⟩] else misfitsAt schema path t value
  | .list t =>
    match value with
    | .null => []
    | .arr items => items.attach.zipIdx.flatMap fun (⟨item, _⟩, i) => misfitsAt schema (path ++ [.index i]) t item
    | single => misfitsAt schema path t single
  | .named name =>
    match value with
    | .null => []
    | .obj entries =>
      match schema.details? name with
      | some (.input fields isOneOf) =>
        (fields.flatMap fun f =>
          match entries.attach.find? (·.1.1 == f.name) with
          | some ⟨(_, v), _⟩ => misfitsAt schema (path ++ [.key f.name]) f.type v
          | none => if f.isRequired then [⟨path, .missingField f.name f.type⟩] else []) ++
          objectMisfits path name fields isOneOf entries
      | _ => (leafCause? schema name (.obj entries)).toList.map (⟨path, ·⟩)
    | leaf => (leafCause? schema name leaf).toList.map (⟨path, ·⟩)
termination_by (sizeOf value, sizeOf type)
decreasing_by
  · exact .right _ (by simp)
  · rename_i h
    have := List.sizeOf_lt_of_mem h
    exact .left _ _ (by simp; omega)
  · exact .right _ (by simp)
  · rename_i h
    have := List.sizeOf_lt_of_mem h
    exact .left _ _ (by simp at this ⊢; omega)

/-- Where a value does not fit a type. -/
def misfits (schema : Schema) (type : TypeRef) (value : Json) : List Misfit := misfitsAt schema [] type value

end FixtureCheck.GraphQL
