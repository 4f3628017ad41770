import FixtureCheck.Proofs.Response.Reordered

/-!
# A walk comes to objects only

Whatever the query asks for and whatever the fixture holds, a walk goes on with objects: the values in all frames that
it comes to are objects (`holdsObjects_of_isVisited`), since the check of a field with parts passes on objects and that
of one without parts passes on nothing. For the same reason no field has a type that the check of fields does not know
what to do with (`not_unexpected_of_mem_walkOperation`). Both hold of walks that are cut off as well.
-/

namespace FixtureCheck.Fixture

open GraphQL (Schema Selection Operation TypeRef OutputField)

variable {schema : Schema}

/-- Is a mismatch one that is reported for a type which is neither an input type nor one with fields? -/
def Mismatch.IsUnexpected : Mismatch → Prop
  | .unexpectedType .. => True
  | _ => False

/-- Are all values of a frame objects? -/
def Frame.HoldsObjects (frame : Frame) : Prop := ∀ v ∈ frame.values, kindOf v.value = .object

/-- **The frames that a walk comes to**: those of the sets that it reaches, and those that the fragments in these sets
leave. -/
def IsVisited (schema : Schema) (top : List Selection) (start frame : Frame) : Prop :=
  ∃ selections outer, Reaches schema top start selections outer ∧
    (frame = outer ∨ ∃ step ∈ setSteps schema [] selections outer, ∃ conditions, step.place? = some (conditions, frame))

/-! ## Fields -/

section

variable {frame : Frame} {key : String} {type : TypeRef} {parent o : Located} {m : Mismatch}

/-- The type of a field is an input type or one with fields. -/
theorem isInputType_or_isComposite (h : schema.isOutputType type = true) :
    schema.isInputType type = true ∨ schema.isComposite type.base = true := by
  cases hl : schema.isLeaf type.base with
  | true => exact .inl (Schema.isInputType_of_isLeaf type hl)
  | false => exact .inr (Schema.isComposite_of_isOutput h hl)

/-- **The check of a field goes on with objects**, whatever the value of the field. -/
theorem kindOf_of_mem_checkField (ho : schema.isOutputType type = true) (hp : type.isProper = true)
    (h : o ∈ (checkField schema frame key type parent).children) : kindOf o.value = .object := by
  rcases isInputType_or_isComposite ho with hinput | hc
  · unfold checkField at h
    split at h
    · split at h <;> cases h
    · rw [if_pos hinput] at h
      cases h
  · obtain ⟨v, -, ho⟩ := mem_children_checkField hc hp h
    exact (mem_objectsAt ho).1

theorem not_unexpected_of_mem_flattenItems {item : TypeRef} {place : ItemPlace} {path : Json.Path} {i : Nat}
    {items : List Json} (h : m ∈ (flattenItems schema item place path i items).errors) : ¬ m.IsUnexpected :=
  match items with
  | [] => by
    rw [flattenItems] at h
    cases h
  | value :: rest => by
    rw [flattenItems_cons] at h
    rcases List.mem_append.1 h with h | h
    · unfold flattenItem at h
      split at h
      · split at h
        · rw [List.mem_singleton.1 h]
          exact id
        · cases h
      · exact not_unexpected_of_mem_flattenItems h
      · rw [List.mem_singleton.1 h]
        exact id
      · cases h
      · split at h
        · rw [List.mem_singleton.1 h]
          exact id
        · cases h
    · exact not_unexpected_of_mem_flattenItems h
termination_by sizeOf items

/-- **The check of a field knows what to do with the type of the field.** -/
theorem not_unexpected_of_mem_checkField (ho : schema.isOutputType type = true)
    (h : m ∈ (checkField schema frame key type parent).errors) : ¬ m.IsUnexpected := by
  have hnamed : ∀ name, schema.isInputType type = false → type.nullable = .named name →
      schema.isComposite name = true := by
    intro name hinput hname
    have hc := (isInputType_or_isComposite ho).resolve_left (by simp [hinput])
    rw [← base_nullable, hname] at hc
    exact hc
  unfold checkField at h
  split at h
  · split at h
    · rw [List.mem_singleton.1 h]
      exact id
    · cases h
  · split at h
    · obtain ⟨misfit, -, rfl⟩ := List.mem_map.1 h
      exact id
    · rename_i v hv hinput
      have hinput : schema.isInputType type = false := by simpa using hinput
      split at h
      · split at h
        · rw [List.mem_singleton.1 h]
          exact id
        · cases h
      · rename_i name _ hname
        rw [if_pos (hnamed name hinput hname)] at h
        split at h
        · cases h
        · rw [List.mem_singleton.1 h]
          exact id
      · exact not_unexpected_of_mem_flattenItems h
      · rw [List.mem_singleton.1 h]
        exact id
      · rename_i name hname _
        rw [hnamed name hinput hname] at h
        simp only [Bool.not_true, Bool.false_eq_true, ↓reduceIte] at h
        split at h
        · cases h
        · rw [List.mem_singleton.1 h]
          exact id
      · cases h

end

/-! ## Walks -/

section

variable {top selections : List Selection} {start frame narrowed : Frame} {m : Mismatch}

/-- The objects below a field are objects. -/
theorem holdsObjects_below (hw : schema.IsWellFormed) {key name : String} {parent : Option String}
    {definition : OutputField} (hd : schema.fieldOf? parent name = some definition) :
    (narrowed.below schema key definition).HoldsObjects := by
  intro o ho
  obtain ⟨u, -, hc⟩ := mem_values_below.1 ho
  obtain ⟨houtput, hproper⟩ := hw.fieldOf? hd
  exact kindOf_of_mem_checkField houtput hproper hc

/-- **All values in the frames that a walk comes to are objects** if those that it starts with are. -/
theorem holdsObjects_of_isVisited (hw : schema.IsWellFormed) (hstart : start.HoldsObjects)
    (h : IsVisited schema top start frame) : frame.HoldsObjects := by
  obtain ⟨selections, outer, hr, hframe⟩ := h
  have houter : outer.HoldsObjects := by
    cases hr with
    | here => exact hstart
    | field _ looks _ => exact holdsObjects_below hw looks.known
  rcases hframe with rfl | ⟨step, hs, conditions, hp⟩
  · exact houter
  · exact fun v hv => houter v (values_of_mem_setSteps hp hs v hv)

/-- Does a property hold of all mismatches that the checks of fields find? -/
def HoldsOfChecks (schema : Schema) (P : Mismatch → Prop) : Prop :=
  ∀ (frame : Frame) key name definition, schema.fieldOf? (some frame.type) name = some definition →
    ∀ m ∈ (checkAll schema frame key definition.type).errors, P m

theorem mem_errors_andThen {α β : Type} {x : Checking α} {next : α → Checking β}
    (h : m ∈ (x.andThen next).errors) : m ∈ x.errors ∨ ∃ a, m ∈ (next a).errors := by
  unfold Checking.andThen at h
  split at h
  · exact .inl h
  · exact (List.mem_append.1 h).imp id fun h => ⟨_, h⟩

mutual

/-- **What a walk reports is found by checks of fields**, whether the walk is cut off or not. -/
theorem of_mem_errors_walkSet {P : Mismatch → Prop} (hP : HoldsOfChecks schema P) {selections : List Selection}
    {frame : Frame} {e : Expectation} (h : m ∈ (walkSet schema selections frame e).errors) : P m :=
  match selections with
  | [] => by
    rw [walkSet] at h
    exact of_mem_errors_walkSelections hP h
  | first :: rest => by
    rw [walkSet] at h
    split at h
    · cases h
    · rcases mem_errors_andThen h with h | ⟨e, h⟩
      · exact of_mem_errors_walkSelection hP h
      · exact of_mem_errors_walkSelections hP h

theorem of_mem_errors_walkSelections {P : Mismatch → Prop} (hP : HoldsOfChecks schema P) {selections : List Selection}
    {frame : Frame} {e : Expectation} (h : m ∈ (walkSelections schema selections frame e).errors) : P m :=
  match selections with
  | [] => by
    rw [walkSelections] at h
    cases h
  | first :: rest => by
    rw [walkSelections] at h
    rcases mem_errors_andThen h with h | ⟨e, h⟩
    · exact of_mem_errors_walkSelection hP h
    · exact of_mem_errors_walkSelections hP h

theorem of_mem_errors_walkSelection {P : Mismatch → Prop} (hP : HoldsOfChecks schema P) {selection : Selection}
    {frame : Frame} {e : Expectation} (h : m ∈ (walkSelection schema selection frame e).errors) : P m :=
  match selection with
  | .field f selections => by
    rw [walkSelection_field, walkField] at h
    cases hd : schema.fieldOf? (some frame.type) f.name with
    | none =>
      rw [hd] at h
      cases h
    | some definition =>
      simp only [hd] at h
      rcases mem_errors_andThen h with h | ⟨-, h⟩
      · exact hP frame f.key f.name definition hd m h
      · split at h
        · cases h
        · rcases mem_errors_andThen h with h | ⟨child, h⟩
          · rw [walkBelow] at h
            exact of_mem_errors_walkSet hP h
          · cases h
  | .spread .. => by
    rw [walkSelection] at h
    cases h
  | .inline condition _ selections => by
    rw [walkSelection] at h
    split at h
    · cases h
    · exact of_mem_errors_walkSet hP h

end

/-- **No mismatch is reported for a type that is neither an input type nor one with fields**, even if the walk is cut
off. -/
theorem not_unexpected_of_mem_walkOperation (hw : schema.IsWellFormed) {root : String} {operation : Operation}
    {fixture : Json} (h : m ∈ (walkOperation schema root operation fixture).errors) : ¬ m.IsUnexpected := by
  rw [walkOperation_eq] at h
  rcases mem_errors_andThen h with h | ⟨-, h⟩
  · simp only [Checking.report] at h
    split at h
    · cases h
    · rw [List.mem_singleton.1 h]
      exact id
  · refine of_mem_errors_walkSet (P := fun m => ¬ m.IsUnexpected) (fun frame key name definition hd m hm => ?_) h
    rw [checkAll_eq] at hm
    obtain ⟨v, -, hm⟩ := List.mem_flatMap.1 hm
    exact not_unexpected_of_mem_checkField (hw.fieldOf? hd).1 hm

end

end FixtureCheck.Fixture
