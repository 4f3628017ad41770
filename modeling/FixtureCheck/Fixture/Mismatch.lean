import FixtureCheck.Fixture.Value
import FixtureCheck.GraphQL.Coercion

/-!
# Mismatches

A `Mismatch` is one way in which a fixture differs from what a query expects; an `Abort` is one in which a query and a
schema differ, so that no fixture can be right.
-/

namespace FixtureCheck.Fixture

open GraphQL (Misfit TypeRef OperationKind)

/-- The place of an item in the arrays under a key. -/
structure ItemPlace where
  key : String
  indexes : List Nat := []
  deriving DecidableEq, Repr

/-- A place in words. -/
def ItemPlace.text (place : ItemPlace) : String := place.key ++ String.join (place.indexes.map fun i => s!"[{i}]")

/-- The place of an item of an array. -/
def ItemPlace.item (place : ItemPlace) (i : Nat) : ItemPlace := { place with indexes := place.indexes ++ [i] }

/-- A difference between a fixture and what a query expects. -/
inductive Mismatch where
  | rootNotObject (operation : OperationKind) (kind : Kind)
  | missing (key : String)
  | misfit (misfit : Misfit)
  | nullItem (place : ItemPlace)
  | itemNotArray (place : ItemPlace) (kind : Kind)
  | itemNotObject (place : ItemPlace) (kind : Kind)
  | notArray (key : String) (kind : Kind)
  | notObject (key : String) (kind : Kind)
  | unexpectedType (key : String) (type : TypeRef)
  | extraField (key : String)

/-- The message about a mismatch. -/
def Mismatch.message : Mismatch → String
  | rootNotObject operation kind => s!"Expected object for {operation.text} root, but got {kind.text}"
  | missing key => s!"Missing expected fixture data for {key}"
  | misfit m => m.message
  | nullItem place => s!"Null value found in non-nullable array at {place.text}"
  | itemNotArray place kind => s!"Expected array at {place.text}, but got {kind.text}"
  | itemNotObject place kind => s!"Expected object at {place.text}, but got {kind.text}"
  | notArray key kind => s!"Expected array for {key}, but got {kind.text}"
  | notObject key kind => s!"Expected object for {key}, but got {kind.text}"
  | unexpectedType key type => s!"Unexpected type for {key}: {type.text}"
  | extraField key => s!"Extra field \"{key}\" found in fixture data not in query"

/-- Why a query cannot be compared with any fixture. -/
inductive Abort where
  | missingTypename (type : String)
  | unknownCondition (type : String)
  | unknownField (key : String)
  deriving DecidableEq, Repr

/-- The message about an abort. -/
def Abort.message : Abort → String
  | missingTypename type => s!"Missing __typename field for abstract type {type}"
  | unknownCondition type => s!"Unknown type {type} in fragment type condition"
  | unknownField key => s!"Cannot validate {key}: missing type information"

end FixtureCheck.Fixture
