import FixtureCheck.Proofs.Walk.Steps

/-!
# Walks without objects

`Expectation.withoutObjects` leaves the objects out of a tree of expectations. What is left of the outcome of a walk is
the outcome of the walk without objects (`outcome_walkSet_withoutObjects`), so it is the same for all fixtures
(`outcome_walkOperation_withoutObjects`): a missing value, a null, a value of the wrong kind and an object that a
fragment filters out change nothing but the objects.
-/

namespace FixtureCheck.Fixture

open GraphQL (Schema Field Selection Operation)

/-- The frame without its objects. -/
def Frame.withoutObjects (frame : Frame) : Frame := { frame with values := [] }

namespace Expectation

mutual

/-- The tree without its objects. -/
def withoutObjects : Expectation → Expectation
  | ⟨key, common, byType, typenameKey, children, _⟩ =>
    ⟨key, common, byType, typenameKey, withoutObjectsAll children, []⟩

/-- The trees in a row without their objects. -/
def withoutObjectsAll : List Expectation → List Expectation
  | [] => []
  | e :: rest => e.withoutObjects :: withoutObjectsAll rest

end

theorem withoutObjectsAll_eq_map : ∀ trees : List Expectation, withoutObjectsAll trees = trees.map withoutObjects
  | [] => rfl
  | e :: rest => congrArg (e.withoutObjects :: ·) (withoutObjectsAll_eq_map rest)

@[simp] theorem withoutObjects_withTypenameKey (e : Expectation) (key : Option String) :
    (e.withTypenameKey key).withoutObjects = e.withoutObjects.withTypenameKey key := by
  cases e
  rfl

@[simp] theorem withoutObjects_record (e : Expectation) (key : String) (condition : Option String)
    (possible : NameSet) :
    (e.record key condition possible).withoutObjects = e.withoutObjects.record key condition possible := by
  cases e
  cases condition <;> rfl

@[simp] theorem withoutObjects_addChild (e child : Expectation) :
    (e.addChild child).withoutObjects = e.withoutObjects.addChild child.withoutObjects := by
  cases e
  simp [addChild, withoutObjects, withoutObjectsAll_eq_map]

theorem withoutObjects_addObject (e : Expectation) (v : Located) :
    (e.addObject v).withoutObjects = e.withoutObjects := by
  cases e
  unfold addObject
  split
  · split <;> rfl
  · rfl

@[simp] theorem withoutObjects_addObjects (values : List Located) :
    ∀ e : Expectation, (e.addObjects values).withoutObjects = e.withoutObjects := by
  induction values with
  | nil => exact fun e => rfl
  | cons v rest ih =>
    intro e
    have hv := withoutObjects_addObject e v
    rw [← hv]
    exact ih (e.addObject v)

end Expectation

namespace Frame

@[simp] theorem withoutObjects_withTypenameKey (frame : Frame) (key : Option String) :
    (frame.withTypenameKey key).withoutObjects = frame.withoutObjects.withTypenameKey key := by
  cases key <;> rfl

@[simp] theorem withoutObjects_enter (schema : Schema) (frame : Frame) (condition : Option String) :
    (frame.enter schema condition).withoutObjects = frame.withoutObjects.enter schema condition := by
  cases condition <;> rfl

@[simp] theorem withoutObjects_forField (schema : Schema) (values : List Located) (type : String)
    (key : Option String) : (forField schema values type key).withoutObjects = forField schema [] type key := rfl

end Frame

open Expectation

/-- Two ways in two parts come to the same end, but for the objects, if their parts do. -/
theorem map_bind_outcome {x y : Except Abort Expectation} {f g : Expectation → Except Abort Expectation}
    (hx : x.map withoutObjects = y) (hf : ∀ e, (f e).map withoutObjects = g e.withoutObjects) :
    (x.bind f).map withoutObjects = y.bind g := by
  subst hx
  cases x with
  | error c => rfl
  | ok e => exact hf e

variable {schema : Schema}

mutual

/-- **A walk through a set without objects comes to the end of the walk with them**, but for the objects. -/
theorem outcome_walkSet_withoutObjects (selections : List Selection) (frame : Frame) (e : Expectation) :
    (walkSet schema selections frame e).outcome.map withoutObjects =
      (walkSet schema selections frame.withoutObjects e.withoutObjects).outcome :=
  match selections with
  | [] => by
    simp only [walkSet, walkSelections]
    rfl
  | first :: rest => by
    have hl : lacksTypename schema frame.withoutObjects (first :: rest) =
        lacksTypename schema frame (first :: rest) := rfl
    have ht : frame.withoutObjects.type = frame.type := rfl
    rw [walkSet, walkSet, hl, ht]
    cases lacksTypename schema frame (first :: rest) with
    | true => rfl
    | false =>
      simp only [Bool.false_eq_true, ↓reduceIte, Checking.bind_def, Checking.outcome_andThen,
        ← Frame.withoutObjects_withTypenameKey, ← withoutObjects_withTypenameKey]
      exact map_bind_outcome (outcome_walkSelection_withoutObjects first _ _)
        fun e => outcome_walkSelections_withoutObjects rest _ e

theorem outcome_walkSelections_withoutObjects (selections : List Selection) (frame : Frame) (e : Expectation) :
    (walkSelections schema selections frame e).outcome.map withoutObjects =
      (walkSelections schema selections frame.withoutObjects e.withoutObjects).outcome :=
  match selections with
  | [] => by
    simp only [walkSelections]
    rfl
  | first :: rest => by
    rw [walkSelections, walkSelections]
    simp only [Checking.bind_def, Checking.outcome_andThen]
    exact map_bind_outcome (outcome_walkSelection_withoutObjects first frame e)
      fun e => outcome_walkSelections_withoutObjects rest frame e

theorem outcome_walkSelection_withoutObjects (selection : Selection) (frame : Frame) (e : Expectation) :
    (walkSelection schema selection frame e).outcome.map withoutObjects =
      (walkSelection schema selection frame.withoutObjects e.withoutObjects).outcome :=
  match selection with
  | .field f selections => by
    rw [walkSelection_field, walkSelection_field]
    have ht : frame.withoutObjects.type = frame.type := rfl
    simp only [walkField, ht]
    cases schema.fieldOf? (some frame.type) f.name with
    | none => rfl
    | some definition =>
      simp only [Checking.outcome_andThen, Checking.report, Except.bind]
      cases hs : selections.isEmpty with
      | true => exact congrArg Except.ok (withoutObjects_record ..)
      | false =>
        simp only [Bool.false_eq_true, ↓reduceIte, Checking.outcome_andThen]
        -- the set below starts from the same frame and the same scope, up to the objects
        have hbelow := outcome_walkSet_withoutObjects selections (frame.below schema f.key definition)
          (holding (some f.key) (frame.below schema f.key definition).values)
        have hhold : ∀ values, (holding (some f.key) values).withoutObjects = { key := some f.key } := by
          intro values
          exact withoutObjects_addObjects values _
        have hframe : (frame.below schema f.key definition).withoutObjects =
            frame.withoutObjects.below schema f.key definition := rfl
        rw [hhold, hframe] at hbelow
        refine map_bind_outcome hbelow fun child => ?_
        rw [← withoutObjects_record, ← withoutObjects_addChild]
        rfl
  | .spread .. => by
    simp only [walkSelection]
    rfl
  | .inline condition _ selections => by
    rw [walkSelection, walkSelection]
    cases condition.filter fun name => (schema.type? name).isNone with
    | some name => rfl
    | none =>
      simp only
      rw [outcome_walkSet_withoutObjects selections, Frame.withoutObjects_enter]

end

/-- The walk of an operation through a fixture goes through its selection set. -/
theorem outcome_walkOperation (root : String) (operation : Operation) (fixture : Json) :
    (walkOperation schema root operation fixture).outcome =
      (let values := if kindOf fixture = .object then [⟨[], fixture⟩] else []
       walkSet schema operation.selections (.forField schema values root none) (holding none values)).outcome := by
  unfold walkOperation
  simp only [Checking.bind_def, Checking.outcome_andThen]
  rfl

/-- **What a query expects does not depend on the fixture.** -/
theorem outcome_walkOperation_withoutObjects (root : String) (operation : Operation) (fixture : Json) :
    (walkOperation schema root operation fixture).outcome.map withoutObjects =
      (walkSet schema operation.selections (.forField schema [] root none) {}).outcome := by
  rw [outcome_walkOperation]
  simp only
  rw [outcome_walkSet_withoutObjects, Frame.withoutObjects_forField, holding, withoutObjects_addObjects]
  rfl

end FixtureCheck.Fixture
