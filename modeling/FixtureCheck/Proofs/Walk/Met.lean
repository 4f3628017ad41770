import FixtureCheck.Proofs.Walk.Steps

/-!
# The fields met in a selection set

`metIn` lists the fields of a selection set and of the inline fragments in it, each with the type conditions around it.
It looks at the query alone; the steps of a walk that is not cut off look at the same fields in the same order
(`filterMap_met_setSteps`), in frames that the type conditions determine up to the objects (`Frame.IsAt`,
`isAt_of_mem_setSteps`).
-/

namespace FixtureCheck.Fixture

open GraphQL (Schema Field Selection)

/-- A field met in a selection set, with the type conditions around it there, the outermost first. -/
structure Met where
  conditions : List String
  field : Field
  selections : List Selection

mutual

/-- The fields met in selections in a row that stand under type conditions. -/
def metIn (conditions : List String) : List Selection → List Met
  | [] => []
  | selection :: rest => metAt conditions selection ++ metIn conditions rest

/-- The fields met in a selection that stands under type conditions. -/
def metAt (conditions : List String) : Selection → List Met
  | .field f selections => [⟨conditions, f, selections⟩]
  | .spread .. => []
  | .inline condition _ selections => metIn (conditions ++ condition.toList) selections

end

/-- The object types of a set that meet all of the type conditions. -/
def narrowAll (schema : Schema) (types : NameSet) (conditions : List String) : NameSet :=
  conditions.foldl (fun types condition => narrow schema types (some condition)) types

theorem mem_narrowAll {schema : Schema} {name : String} : ∀ {conditions : List String} {types : NameSet},
    name ∈ narrowAll schema types conditions ↔ name ∈ types ∧ ∀ c ∈ conditions, name ∈ schema.possibleTypes c
  | [], types => by simp [narrowAll]
  | c :: rest, types => by
    have ih := @mem_narrowAll schema name rest (narrow schema types (some c))
    simp only [narrowAll, List.foldl_cons] at ih ⊢
    rw [ih, narrow, NameSet.mem_inter, List.forall_mem_cons, and_assoc]

theorem narrowAll_append (schema : Schema) (types : NameSet) (conditions : List String) (c : String) :
    narrowAll schema types (conditions ++ [c]) = narrow schema (narrowAll schema types conditions) (some c) := by
  simp [narrowAll]

namespace Met

/-- The type on which the field is selected, in the selection set of a field of the given type. -/
def type (m : Met) (declared : String) : String := m.conditions.getLastD declared

/-- The object types for which the field is selected, in the selection set of a field of the given type. -/
def possible (schema : Schema) (declared : String) (m : Met) : NameSet :=
  narrowAll schema (schema.possibleTypes declared) m.conditions

end Met

mutual

theorem sizeOf_lt_of_mem_metIn {conditions : List String} {m : Met} :
    ∀ {selections : List Selection}, m ∈ metIn conditions selections → sizeOf m.selections < sizeOf selections
  | [], h => by simp [metIn] at h
  | selection :: rest, h => by
    rw [metIn, List.mem_append] at h
    rcases h with h | h
    · have := sizeOf_lt_of_mem_metAt h
      simp only [List.cons.sizeOf_spec]
      omega
    · have := sizeOf_lt_of_mem_metIn h
      simp only [List.cons.sizeOf_spec]
      omega

theorem sizeOf_lt_of_mem_metAt {conditions : List String} {m : Met} :
    ∀ {selection : Selection}, m ∈ metAt conditions selection → sizeOf m.selections < sizeOf selection
  | .field f selections, h => by
    rw [metAt, List.mem_singleton] at h
    subst h
    simp only [Selection.field.sizeOf_spec]
    omega
  | .spread .., h => by simp [metAt] at h
  | .inline condition _ selections, h => by
    rw [metAt] at h
    have := sizeOf_lt_of_mem_metIn h
    simp only [Selection.inline.sizeOf_spec]
    omega

end

/-! ## The frames of steps -/

/-- **The frame under type conditions in the selection set of a field** of type `declared` that `objects` stand below:
the conditions determine all but the objects that are left and the key for type names. -/
structure Frame.IsAt (schema : Schema) (declared : String) (objects : List Located) (conditions : List String)
    (frame : Frame) : Prop where
  values : frame.values.Sublist objects
  type : frame.type = conditions.getLastD declared
  possible : frame.possible = narrowAll schema (schema.possibleTypes declared) conditions
  fieldPossible : frame.fieldPossible = schema.possibleTypes declared
  condition : frame.condition = conditions.getLast?

namespace Frame

variable {schema : Schema} {declared : String} {objects : List Located} {conditions : List String} {frame : Frame}

theorem typenameKey_inSet (frame : Frame) (selections : List Selection) :
    (frame.inSet selections).typenameKey = (typenameKey? selections).or frame.typenameKey := by
  unfold inSet
  cases typenameKey? selections <;> rfl

theorem values_inSet (frame : Frame) (selections : List Selection) :
    (frame.inSet selections).values = frame.values := by
  unfold inSet
  cases typenameKey? selections <;> rfl

theorem isAt_forField (schema : Schema) (values : List Located) (declared : String) (key : Option String) :
    (forField schema values declared key).IsAt schema declared values [] :=
  ⟨.refl _, rfl, rfl, rfl, rfl⟩

theorem IsAt.inSet (h : frame.IsAt schema declared objects conditions) (selections : List Selection) :
    (frame.inSet selections).IsAt schema declared objects conditions := by
  unfold Frame.inSet
  cases typenameKey? selections with
  | none => exact h
  | some key => exact ⟨h.values, h.type, h.possible, h.fieldPossible, h.condition⟩

theorem IsAt.enter (h : frame.IsAt schema declared objects conditions) (condition : Option String) :
    (frame.enter schema condition).IsAt schema declared objects (conditions ++ condition.toList) := by
  cases condition with
  | none => simpa [Frame.enter] using h
  | some c =>
    refine ⟨List.filter_sublist.trans h.values, ?_, ?_, h.fieldPossible, ?_⟩
    · simp [Frame.enter, List.getLastD_eq_getLast?]
    · simp only [Frame.enter, Option.toList_some, narrowAll_append, h.possible]
    · simp [Frame.enter]

end Frame

/-- The type conditions and the frame of a step. -/
def Step.place? : Step → Option (List String × Frame)
  | .stop _ => none
  | .set conditions frame _ | .field conditions frame _ _ => some (conditions, frame)

/-- The field that a step looks at. -/
def Step.met? : Step → Option Met
  | .field conditions _ f selections => some ⟨conditions, f, selections⟩
  | _ => none

section

variable {schema : Schema} {declared : String} {objects : List Located}

mutual

/-- Every step in the selection set of a field is in a frame of the type conditions around it. -/
theorem isAt_of_mem_setSteps {step : Step} {conditions' : List String} {frame' : Frame}
    (hp : step.place? = some (conditions', frame')) {conditions : List String} {selections : List Selection}
    {frame : Frame} (h : frame.IsAt schema declared objects conditions)
    (hm : step ∈ setSteps schema conditions selections frame) : frame'.IsAt schema declared objects conditions' :=
  match selections with
  | [] => by simp [setSteps] at hm
  | first :: rest => by
    rw [setSteps] at hm
    split at hm
    · rw [List.mem_singleton.1 hm] at hp
      cases hp
    · have hin := h.inSet (first :: rest)
      simp only [List.mem_cons, List.mem_append] at hm
      rcases hm with rfl | hm | hm
      · cases hp
        exact hin
      · exact isAt_of_mem_selectionSteps hp hin hm
      · exact isAt_of_mem_selectionsSteps hp hin hm

theorem isAt_of_mem_selectionsSteps {step : Step} {conditions' : List String} {frame' : Frame}
    (hp : step.place? = some (conditions', frame')) {conditions : List String} {selections : List Selection}
    {frame : Frame} (h : frame.IsAt schema declared objects conditions)
    (hm : step ∈ selectionsSteps schema conditions selections frame) :
    frame'.IsAt schema declared objects conditions' :=
  match selections with
  | [] => by simp [selectionsSteps] at hm
  | first :: rest => by
    rw [selectionsSteps, List.mem_append] at hm
    rcases hm with hm | hm
    · exact isAt_of_mem_selectionSteps hp h hm
    · exact isAt_of_mem_selectionsSteps hp h hm

theorem isAt_of_mem_selectionSteps {step : Step} {conditions' : List String} {frame' : Frame}
    (hp : step.place? = some (conditions', frame')) {conditions : List String} {selection : Selection} {frame : Frame}
    (h : frame.IsAt schema declared objects conditions) (hm : step ∈ selectionSteps schema conditions selection frame) :
    frame'.IsAt schema declared objects conditions' :=
  match selection with
  | .field f selections => by
    rw [selectionSteps, List.mem_singleton] at hm
    subst hm
    cases hp
    exact h
  | .spread .. => by simp [selectionSteps] at hm
  | .inline condition _ selections => by
    rw [selectionSteps] at hm
    split at hm
    · rw [List.mem_singleton.1 hm] at hp
      cases hp
    · exact isAt_of_mem_setSteps hp (h.enter condition) hm

end

/-- Every field that is looked at is looked at in a frame of the type conditions around it. -/
theorem isAt_of_field_mem {conditions : List String} {frame g : Frame} {f : Field} {inner selections : List Selection}
    (hf : frame.IsAt schema declared objects [])
    (hm : Step.field conditions g f inner ∈ setSteps schema [] selections frame) :
    g.IsAt schema declared objects conditions := isAt_of_mem_setSteps rfl hf hm

mutual

/-- **The steps that do not cut a walk off look at the fields met in the set, in order.** -/
theorem filterMap_met_setSteps {conditions : List String} {selections : List Selection} {frame : Frame}
    (h : ∀ cause, Step.stop cause ∉ setSteps schema conditions selections frame) :
    (setSteps schema conditions selections frame).filterMap Step.met? = metIn conditions selections :=
  match selections with
  | [] => by
    rw [setSteps, metIn]
    rfl
  | first :: rest => by
    rw [setSteps] at h ⊢
    split
    · rename_i hl
      exact absurd (by rw [if_pos hl]; exact List.mem_singleton_self _) (h (.missingTypename frame.type))
    · rename_i hl
      rw [if_neg hl] at h
      simp only [List.mem_cons, List.mem_append, not_or] at h
      rw [List.filterMap_cons_none rfl, List.filterMap_append, metIn,
        filterMap_met_selectionSteps fun c => (h c).2.1, filterMap_met_selectionsSteps fun c => (h c).2.2]

theorem filterMap_met_selectionsSteps {conditions : List String} {selections : List Selection} {frame : Frame}
    (h : ∀ cause, Step.stop cause ∉ selectionsSteps schema conditions selections frame) :
    (selectionsSteps schema conditions selections frame).filterMap Step.met? = metIn conditions selections :=
  match selections with
  | [] => by
    rw [selectionsSteps, metIn]
    rfl
  | first :: rest => by
    rw [selectionsSteps] at h ⊢
    simp only [List.mem_append, not_or] at h
    rw [List.filterMap_append, metIn, filterMap_met_selectionSteps fun c => (h c).1,
      filterMap_met_selectionsSteps fun c => (h c).2]

theorem filterMap_met_selectionSteps {conditions : List String} {selection : Selection} {frame : Frame}
    (h : ∀ cause, Step.stop cause ∉ selectionSteps schema conditions selection frame) :
    (selectionSteps schema conditions selection frame).filterMap Step.met? = metAt conditions selection :=
  match selection with
  | .field f selections => by
    rw [selectionSteps, metAt]
    rfl
  | .spread .. => by
    rw [selectionSteps, metAt]
    rfl
  | .inline condition _ selections => by
    rw [selectionSteps] at h ⊢
    rw [metAt]
    cases hc : condition.filter fun name => (schema.type? name).isNone with
    | some name => simp [hc] at h
    | none =>
      simp only [hc] at h ⊢
      exact filterMap_met_setSteps h

end

end

end FixtureCheck.Fixture
