import FixtureCheck.Proofs.Query.Aborts
import FixtureCheck.Proofs.Walk.Expected

/-!
# Verdicts

A check of an accepted document walks through a typed operation (`Compares.walked`). It finds nothing wrong if and only
if each field that the walk looks at is answered by each of the objects there (`errors_walkOperation_eq_nil`) and no key
of an object is left over (`errors_ofWalk_eq_nil`).
-/

namespace FixtureCheck.Fixture

open GraphQL (Schema Document Selection Operation OutputField AreTyped)

variable {schema : Schema}

/-- The frame in which a walk through an operation starts. -/
def rootFrame (schema : Schema) (root : String) (fixture : Json) : Frame :=
  .forField schema [⟨[], fixture⟩] root none

/-- Is a field answered by an object: is its value there and fits, or is it missing where it is not expected? -/
def Answered (schema : Schema) (narrowed : Frame) (m : Met) (definition : OutputField) (v : Located) : Prop :=
  (∃ w, v.field? m.field.key = some w ∧ Fits schema definition.type w.value) ∨
    v.field? m.field.key = none ∧ narrowed.expects v = false

/-- The checks of a field find no mismatch if and only if each object answers it. -/
theorem errors_checkAll_eq_nil (hw : schema.IsWellFormed) {narrowed : Frame} {m : Met} {definition : OutputField}
    (hd : schema.fieldOf? (some narrowed.type) m.field.name = some definition) :
    (checkAll schema narrowed m.field.key definition.type).errors = [] ↔
      ∀ v ∈ narrowed.values, Answered schema narrowed m definition v := by
  obtain ⟨ho, hp⟩ := hw.fieldOf? hd
  rw [checkAll_eq, List.flatMap_eq_nil_iff]
  refine forall₂_congr fun v _ => ?_
  unfold Answered
  cases hv : v.field? m.field.key with
  | none =>
    rw [errors_checkField_of_none hv]
    simp
  | some w =>
    rw [errors_checkField_eq_nil ho hp hv]
    simp

/-! ## Walks of operations -/

section

variable {root : String} {operation : Operation} {fixture : Json} {tree : Expectation}

/-- The walk of an operation through an object is that through its selection set. -/
theorem walkOperation_of_object (hk : kindOf fixture = .object) :
    walkOperation schema root operation fixture =
      walkSet schema operation.selections (rootFrame schema root fixture)
        (.holding none (rootFrame schema root fixture).values) := by
  unfold walkOperation
  rw [if_pos hk, if_pos hk]
  rfl

/-- The walk of an operation through anything but an object finds a mismatch. -/
theorem errors_walkOperation_ne_nil (hk : kindOf fixture ≠ .object) :
    (walkOperation schema root operation fixture).errors ≠ [] := by
  unfold walkOperation
  rw [if_neg hk, if_neg hk, Checking.bind_def, Checking.errors_andThen (a := ()) rfl]
  simp [Checking.report]

theorem errors_ofWalk_eq_nil {walk : Checking Expectation} :
    (CheckResult.ofWalk walk).errors = [] ↔
      ∃ tree, walk.outcome = .ok tree ∧ walk.errors = [] ∧ extraFields tree = [] := by
  unfold CheckResult.ofWalk
  cases h : walk.outcome with
  | error cause => simp
  | ok tree => simp

/-- What holds of a walk of an accepted operation through an object that is not cut off. -/
theorem Compares.walked {document : Document} {name : Option String} (ha : GraphQL.Accepts schema document)
    (hw : schema.IsWellFormed) (h : Compares schema document name operation root) (hk : kindOf fixture = .object)
    (ht : (walkOperation schema root operation fixture).outcome = .ok tree) :
    Walked schema fixture operation.selections (rootFrame schema root fixture) tree where
  builds := by
    rw [walkOperation_of_object hk] at ht
    exact ⟨none, ht⟩
  typed := h.areTyped ha hw
  composite := Schema.isComposite_of_isObject (ha.isObject_root (root?_of_rootType h.root))
  isAt := Frame.isAt_forField ..
  values v hv := by
    rw [List.mem_singleton.1 hv]
    exact ⟨by simp [Located.IsIn, Json.get?], hk⟩

/-- **A walk that is not cut off finds no mismatch if and only if each field is answered by each object on which it is
looked at.** -/
theorem errors_walkOperation_eq_nil (hw : schema.IsWellFormed) (hk : kindOf fixture = .object)
    (ht : (walkOperation schema root operation fixture).outcome = .ok tree) :
    (walkOperation schema root operation fixture).errors = [] ↔
      ∀ selections frame, Reaches schema operation.selections (rootFrame schema root fixture) selections frame →
        ∀ narrowed m definition, LooksAt schema selections frame narrowed m definition → ∀ v ∈ narrowed.values,
          Answered schema narrowed m definition v := by
  rw [walkOperation_of_object hk] at ht ⊢
  rw [errors_walkSet_eq_nil ht]
  refine forall₂_congr fun selections frame => forall_congr' fun _ => ?_
  refine forall₂_congr fun narrowed m => forall₂_congr fun definition hl => ?_
  exact errors_checkAll_eq_nil hw hl.known

end

end FixtureCheck.Fixture
