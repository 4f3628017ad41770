import FixtureCheck.Fixture.Value
import FixtureCheck.GraphQL.Schema

/-!
# Frames

A `Frame` is what a walk through a query knows at one level: the objects of the fixture that are there, the type whose
fields are selected, and the object types they can have. Entering a fragment narrows the types, and the objects to those
that do not name another type. `Frame.expects` decides whether an object should have the fields selected in the frame.
-/

namespace FixtureCheck.Fixture

open GraphQL (Schema)

/-- What a walk knows at one level of a query. -/
structure Frame where
  /-- The objects at this level. -/
  values : List Located
  /-- The type whose fields are selected. -/
  type : String
  /-- The object types that the objects can have. -/
  possible : NameSet
  /-- The object types of the declared type of the field around. -/
  fieldPossible : NameSet
  /-- The type condition of the innermost fragment around. -/
  condition : Option String := none
  /-- The key under which objects name their types. -/
  typenameKey : Option String := none

/-- The object types of a set that meet a type condition. -/
def narrow (schema : Schema) (current : NameSet) (condition : Option String) : NameSet :=
  match condition with
  | none => current
  | some type => current.inter (schema.possibleTypes type)

namespace Frame

/-- The frame below a field of a type. -/
def forField (schema : Schema) (values : List Located) (type : String) (typenameKey : Option String) : Frame :=
  let possible := schema.possibleTypes type
  { values, type, possible, fieldPossible := possible, typenameKey }

/-- Does a value name no type, or one of a set? -/
def isReached (typenameKey : Option String) (types : NameSet) (value : Located) : Bool :=
  match typename? value.value typenameKey with
  | none => true
  | some name => decide (name ∈ types)

/-- The frame inside a fragment. -/
def enter (schema : Schema) (frame : Frame) (condition : Option String) : Frame :=
  match condition with
  | none => frame
  | some type =>
    let possible := narrow schema frame.possible (some type)
    { frame with
      values := frame.values.filter (isReached frame.typenameKey possible), type, possible, condition := some type }

/-- The frame with a key for type names, if there is one. -/
def withTypenameKey (frame : Frame) (key : Option String) : Frame :=
  match key with
  | none => frame
  | some key => { frame with typenameKey := some key }

/-- Have fragments left out some of the types? -/
def isNarrowed (frame : Frame) : Bool := frame.possible != frame.fieldPossible

/-- Should an object that lacks a field of the frame have it? An object that names a type outside the frame belongs to
another fragment; where types are not named, an empty object in a narrowed frame is taken for one that met no
fragment. -/
def expects (frame : Frame) (parent : Located) : Bool :=
  match frame.typenameKey with
  | none | some "" => !(frame.isNarrowed && parent.isEmptyObject)
  | key => isReached key frame.possible parent

end Frame

end FixtureCheck.Fixture
