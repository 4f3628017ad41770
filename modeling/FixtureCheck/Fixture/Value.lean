import FixtureCheck.Json.Basic

/-!
# Values of a fixture

A fixture is a JSON value. The kinds of its values have names in messages, with one more for a value that is absent. Two
objects with the same contents at different places are different objects, so a `Located` value carries the position at
which it stands.
-/

namespace FixtureCheck.Fixture

/-- The shape of a value, or of none. -/
inductive Kind where
  | undefined
  | null
  | boolean
  | number
  | string
  | array
  | object
  deriving DecidableEq, Repr

/-- The name of a kind. -/
def Kind.text : Kind → String
  | undefined => "undefined"
  | null => "null"
  | boolean => "boolean"
  | number => "number"
  | string => "string"
  | array => "array"
  | object => "object"

/-- The kind of a value. -/
def kindOf : Json → Kind
  | .null => .null
  | .bool _ => .boolean
  | .int _ | .float _ => .number
  | .str _ => .string
  | .arr _ => .array
  | .obj _ => .object

/-- The kind of a value that may be absent. -/
def kindOf? (value : Option Json) : Kind := value.elim .undefined kindOf

/-- A value and where it stands. -/
structure Located where
  path : Json.Path
  value : Json
  deriving Inhabited

namespace Located

/-- The value under a key. -/
def field? (v : Located) (key : String) : Option Located :=
  (v.value.field? key).map fun inner => ⟨v.path ++ [.key key], inner⟩

/-- The keys of an object. -/
def keys (v : Located) : List String :=
  match v.value with
  | .obj entries => entries.map (·.1)
  | _ => []

/-- Is the value an object without entries? -/
def isEmptyObject (v : Located) : Bool :=
  match v.value with
  | .obj [] => true
  | _ => false

end Located

/-- The type that an object names under a key: a text that is not empty. -/
def typename? (value : Json) (key : Option String) : Option String :=
  match key with
  | none | some "" => none
  | some key =>
    match value.field? key with
    | some (.str "") => none
    | some (.str name) => some name
    | _ => none

end FixtureCheck.Fixture
