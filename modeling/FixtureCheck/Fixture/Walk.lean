import FixtureCheck.Fixture.Expectation
import FixtureCheck.Fixture.Field

/-!
# The walk through a query and a fixture

`walkSet` goes through a selection set with the objects that are there, checks each selected field on each object and
builds up what the set expects of them. Every selection is visited, whether there are objects or not, so a walk is
aborted on account of the query alone. `Checking` is the result of a walk: mismatches, and an expectation unless
aborted.
-/

namespace FixtureCheck.Fixture

open GraphQL (Schema Field Selection)

/-- Mismatches found on the way, and a result unless the way was cut off. -/
structure Checking (α : Type) where
  errors : List Mismatch
  outcome : Except Abort α

namespace Checking

/-- No mismatch and a result. -/
def done {α : Type} (a : α) : Checking α := ⟨[], .ok a⟩

/-- Cut off. -/
def abort {α : Type} (cause : Abort) : Checking α := ⟨[], .error cause⟩

/-- Goes on with the result of a part of the way. -/
def andThen {α β : Type} (x : Checking α) (next : α → Checking β) : Checking β :=
  match x.outcome with
  | .error cause => ⟨x.errors, .error cause⟩
  | .ok a => ⟨x.errors ++ (next a).errors, (next a).outcome⟩

instance : Monad Checking where
  pure := done
  bind := andThen

/-- Takes note of mismatches. -/
def report (errors : List Mismatch) : Checking Unit := ⟨errors, .ok ()⟩

end Checking

/-- The response key of the first `__typename` directly in a selection set. -/
def typenameKey? (selections : List Selection) : Option String :=
  selections.findSome? fun
    | .field f _ => if f.name == "__typename" then some f.key else none
    | _ => none

/-- The inline fragments directly in a selection set. -/
def inlineFragments (selections : List Selection) : List Selection :=
  selections.filter fun
    | .inline .. => true
    | _ => false

/-- Do objects have to name their types, so that the fragments of a set can be told apart, but do not? -/
def lacksTypename (schema : Schema) (frame : Frame) (selections : List Selection) : Bool :=
  schema.isAbstract frame.type && (typenameKey? selections).isNone && (inlineFragments selections).length > 1

/-- The results of a field on each of the objects that are there. -/
def checkAll (schema : Schema) (frame : Frame) (key : String) (type : GraphQL.TypeRef) : FieldResult :=
  frame.values.foldl (fun done parent => done.append (checkField schema frame key type parent)) {}

mutual

/-- Goes through a selection set. -/
def walkSet (schema : Schema) (selections : List Selection) (frame : Frame) (e : Expectation) : Checking Expectation :=
  match selections with
  | [] => walkSelections schema [] frame e
  | first :: rest => do
    if lacksTypename schema frame (first :: rest) then Checking.abort (.missingTypename frame.type)
    else
      let frame := frame.withTypenameKey (typenameKey? (first :: rest))
      let e ← walkSelection schema first frame (e.withTypenameKey frame.typenameKey)
      walkSelections schema rest frame e

/-- Goes through selections in a row. -/
def walkSelections (schema : Schema) (selections : List Selection) (frame : Frame) (e : Expectation) :
    Checking Expectation :=
  match selections with
  | [] => .done e
  | first :: rest => do
    let e ← walkSelection schema first frame e
    walkSelections schema rest frame e

/-- Goes through a selection. -/
def walkSelection (schema : Schema) (selection : Selection) (frame : Frame) (e : Expectation) : Checking Expectation :=
  match selection with
  | .field f selections => do
    let e := e.record f.key frame.condition frame.possible
    match schema.fieldOf? (some frame.type) f.name with
    | none => .abort (.unknownField f.key)
    | some definition =>
      let result := checkAll schema frame f.key definition.type
      Checking.report result.errors
      if selections.isEmpty then .done e
      else
        let below := Frame.forField schema result.children definition.type.base frame.typenameKey
        let child ← walkSet schema selections below (({ key := some f.key } : Expectation).addObjects result.children)
        .done (e.addChild child)
  | .spread .. => .done e
  | .inline condition _ selections =>
    match condition.filter fun name => (schema.type? name).isNone with
    | some name => .abort (.unknownCondition name)
    | none => walkSet schema selections (frame.enter schema condition) e

end

end FixtureCheck.Fixture
