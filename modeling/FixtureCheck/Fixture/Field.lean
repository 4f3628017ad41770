import FixtureCheck.Fixture.Frame
import FixtureCheck.Fixture.Mismatch

/-!
# One field of one object

`checkField` compares the value of one selected field with the declared type. Values with parts of their own are passed
on: `flatten` takes the items out of nested arrays, in order. Types of leaves, and lists of them, take the values that
they take as input.
-/

namespace FixtureCheck.Fixture

open GraphQL (Schema TypeRef)

/-- What the check of a field finds. -/
structure FieldResult where
  /-- The values that the sub-selections apply to. -/
  children : List Located := []
  errors : List Mismatch := []

namespace FieldResult

/-- One result after the other. -/
def append (a b : FieldResult) : FieldResult := ⟨a.children ++ b.children, a.errors ++ b.errors⟩

/-- A result with one error. -/
def error (m : Mismatch) : FieldResult := ⟨[], [m]⟩

/-- A result with one value to go on with. -/
def child (v : Located) : FieldResult := ⟨[v], []⟩

end FieldResult

/-- The items of nested arrays, and the errors about those that do not fit the type of the items. -/
def flattenItems (schema : Schema) (item : TypeRef) (place : ItemPlace) (path : Json.Path) (i : Nat)
    (items : List Json) : FieldResult :=
  match items with
  | [] => {}
  | value :: rest =>
    let here := place.item i
    let there := path ++ [.index i]
    let result : FieldResult :=
      match value, item.nullable with
      | .null, _ => if item.isNonNull then .error (.nullItem here) else {}
      | .arr inner, .list next => flattenItems schema next here there 0 inner
      | value, .list _ => .error (.itemNotArray here (kindOf value))
      | .obj entries, _ => .child ⟨there, .obj entries⟩
      | value, _ =>
        if schema.isComposite item.base then .error (.itemNotObject here (kindOf value)) else .child ⟨there, value⟩
    result.append (flattenItems schema item place path (i + 1) rest)
termination_by sizeOf items

/-- The items of nested arrays under a list type. -/
def flatten (schema : Schema) (item : TypeRef) (place : ItemPlace) (path : Json.Path) (items : List Json) :
    FieldResult :=
  flattenItems schema item place path 0 items

/-- Compares the value an object has under a key with the declared type of the selected field. -/
def checkField (schema : Schema) (frame : Frame) (key : String) (type : TypeRef) (parent : Located) : FieldResult :=
  match parent.field? key with
  | none => if frame.expects parent then .error (.missing key) else {}
  | some v =>
    if schema.isInputType type then ⟨[], (GraphQL.misfits schema type v.value).map .misfit⟩
    else
      match v.value, type.nullable with
      | .null, .list _ => if type.isNonNull then .error (.notArray key .null) else {}
      | .null, .named name =>
        if !type.isNonNull then {}
        else if schema.isComposite name then .error (.notObject key .null)
        else .error (.unexpectedType key (.named name))
      | .arr items, .list item => flatten schema item ⟨key, []⟩ v.path items
      | value, .list _ => .error (.notArray key (kindOf value))
      | value, .named name =>
        if !schema.isComposite name then .error (.unexpectedType key (.named name))
        else if kindOf value = .object then .child v
        else .error (.notObject key (kindOf value))
      | _, .nonNull _ => {}

end FixtureCheck.Fixture
