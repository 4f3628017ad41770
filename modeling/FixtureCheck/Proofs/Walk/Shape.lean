import FixtureCheck.Fixture.Walk
import FixtureCheck.Proofs.Schema.WellFormed

/-!
# Shapes of values

`Fits` says which values belong to the type of a field. Where a field has parts, its values are objects in nested
arrays, as `HasShape` has them; `objectsAt` lists the objects in a value with their places. The check of a field that is
there finds no mismatch if and only if the value fits (`errors_checkField_eq_nil`), and then goes on with exactly these
objects (`mem_children_checkField`).
-/

namespace FixtureCheck.Fixture

open GraphQL (Schema TypeRef)

/-- Has a value the shape of a type with parts: objects in nested arrays, and null where the type lets it be? -/
def HasShape : TypeRef → Json → Prop
  | .named _, value => value = .null ∨ kindOf value = .object
  | .list item, value => value = .null ∨ ∃ items, value = .arr items ∧ ∀ i ∈ items, HasShape item i
  | .nonNull type, value => value ≠ .null ∧ HasShape type value

/-- **Does a value fit the type of a field?** Types without parts, and lists of them, take what they take as input. -/
def Fits (schema : Schema) (type : TypeRef) (value : Json) : Prop :=
  if schema.isInputType type then GraphQL.misfits schema type value = [] else HasShape type value

mutual

/-- The objects in a value, with their places below a path. -/
def objectsAt (path : Json.Path) : Json → List Located
  | .obj entries => [⟨path, .obj entries⟩]
  | .arr items => objectsAmong path 0 items
  | _ => []

/-- The objects in items of an array, the first of which has the index `i`. -/
def objectsAmong (path : Json.Path) (i : Nat) : List Json → List Located
  | [] => []
  | item :: rest => objectsAt (path ++ [.index i]) item ++ objectsAmong path (i + 1) rest

end

/-! ## Shapes -/

section

variable {type : TypeRef} {value : Json}

theorem hasShape_null : HasShape type .null ↔ type.isNonNull = false := by
  cases type <;> simp [HasShape, TypeRef.isNonNull]

/-- But for null, a type is as good as the one without its mark for non-null. -/
theorem hasShape_nullable (hv : value ≠ .null) : HasShape type value ↔ HasShape type.nullable value := by
  cases type <;> simp [HasShape, TypeRef.nullable, hv]

theorem base_nullable : type.nullable.base = type.base := by
  cases type <;> rfl

/-- The mark for non-null stands on a list or a name. -/
theorem nullable_of_isProper (h : type.isProper = true) :
    (∃ name, type.nullable = .named name) ∨ ∃ item, type.nullable = .list item ∧ item.isProper = true := by
  cases type with
  | named name => exact .inl ⟨name, rfl⟩
  | list item => exact .inr ⟨item, rfl, h⟩
  | nonNull inner =>
    cases inner with
    | named name => exact .inl ⟨name, rfl⟩
    | list item => exact .inr ⟨item, rfl, by simpa [TypeRef.isProper, TypeRef.isNonNull] using h⟩
    | nonNull t => simp [TypeRef.isProper, TypeRef.isNonNull] at h

theorem hasShape_named {name : String} (ht : type.nullable = .named name) (hv : value ≠ .null) :
    HasShape type value ↔ kindOf value = .object := by
  rw [hasShape_nullable hv, ht, HasShape]
  simp [hv]

theorem hasShape_list {item : TypeRef} (ht : type.nullable = .list item) (hv : value ≠ .null) :
    HasShape type value ↔ ∃ items, value = .arr items ∧ ∀ i ∈ items, HasShape item i := by
  rw [hasShape_nullable hv, ht, HasShape]
  simp [hv]

end

/-! ## Results of fields -/

theorem checkAll_eq (schema : Schema) (frame : Frame) (key : String) (type : TypeRef) :
    checkAll schema frame key type =
      ⟨frame.values.flatMap fun v => (checkField schema frame key type v).children,
        frame.values.flatMap fun v => (checkField schema frame key type v).errors⟩ := by
  have hfold : ∀ (values : List Located) (done : FieldResult),
      values.foldl (fun done parent => done.append (checkField schema frame key type parent)) done =
        ⟨done.children ++ values.flatMap fun v => (checkField schema frame key type v).children,
          done.errors ++ values.flatMap fun v => (checkField schema frame key type v).errors⟩ := by
    intro values
    induction values with
    | nil => simp
    | cons v rest ih =>
      intro done
      rw [List.foldl_cons, ih]
      simp [FieldResult.append]
  rw [checkAll, hfold]
  simp

section

variable {schema : Schema}

/-- Does a result stand for a value: is there no mismatch if and only if it has a shape, and are its children the
objects in the value, all of them if it has the shape? -/
structure FieldResult.Answers (result : FieldResult) (shape : Prop) (objects : List Located) : Prop where
  errors : result.errors = [] ↔ shape
  sound : ∀ v ∈ result.children, v ∈ objects
  complete : shape → ∀ v ∈ objects, v ∈ result.children

theorem FieldResult.Answers.append {a b : FieldResult} {shape shape' : Prop} {objects objects' : List Located}
    (ha : a.Answers shape objects) (hb : b.Answers shape' objects') :
    (a.append b).Answers (shape ∧ shape') (objects ++ objects') where
  errors := by
    rw [FieldResult.append, List.append_eq_nil_iff, ha.errors, hb.errors]
  sound v hv := by
    rcases List.mem_append.1 hv with hv | hv
    · exact List.mem_append_left _ (ha.sound v hv)
    · exact List.mem_append_right _ (hb.sound v hv)
  complete h v hv := by
    rcases List.mem_append.1 hv with hv | hv
    · exact List.mem_append_left _ (ha.complete h.1 v hv)
    · exact List.mem_append_right _ (hb.complete h.2 v hv)

theorem FieldResult.answers_error {m : Mismatch} {shape : Prop} {objects : List Located} (h : ¬ shape) :
    (FieldResult.error m).Answers shape objects where
  errors := by simp [FieldResult.error, h]
  sound := by simp [FieldResult.error]
  complete hs := absurd hs h

theorem FieldResult.answers_empty {shape : Prop} (h : shape) : ({} : FieldResult).Answers shape [] where
  errors := by simp [h]
  sound := by simp
  complete := by simp

theorem FieldResult.answers_child {v : Located} {shape : Prop} (h : shape) :
    (FieldResult.child v).Answers shape [v] where
  errors := by simp [FieldResult.child, h]
  sound := by simp [FieldResult.child]
  complete := by simp [FieldResult.child]

/-- What comes of one item of an array. -/
def flattenItem (schema : Schema) (item : TypeRef) (here : ItemPlace) (there : Json.Path) (value : Json) :
    FieldResult :=
  match value, item.nullable with
  | .null, _ => if item.isNonNull then .error (.nullItem here) else {}
  | .arr inner, .list next => flattenItems schema next here there 0 inner
  | value, .list _ => .error (.itemNotArray here (kindOf value))
  | .obj entries, _ => .child ⟨there, .obj entries⟩
  | value, _ =>
    if schema.isComposite item.base then .error (.itemNotObject here (kindOf value)) else .child ⟨there, value⟩

theorem flattenItems_cons (item : TypeRef) (place : ItemPlace) (path : Json.Path) (i : Nat) (value : Json)
    (rest : List Json) : flattenItems schema item place path i (value :: rest) =
      (flattenItem schema item (place.item i) (path ++ [.index i]) value).append
        (flattenItems schema item place path (i + 1) rest) := by
  rw [flattenItems.eq_def]
  rfl

/-- Where a type asks for arrays, an item stands for the objects in it. -/
theorem answers_flattenItem_list {item next : TypeRef} (ht : item.nullable = .list next) {here : ItemPlace}
    {there : Json.Path} {value : Json} (hv : value ≠ .null)
    (hinner : ∀ inner, value = .arr inner →
      (flattenItems schema next here there 0 inner).Answers (∀ x ∈ inner, HasShape next x)
        (objectsAmong there 0 inner)) :
    (flattenItem schema item here there value).Answers (HasShape item value) (objectsAt there value) := by
  rw [hasShape_list ht hv]
  cases value with
  | null => exact absurd rfl hv
  | arr inner =>
    simp only [flattenItem, ht, objectsAt]
    simpa using hinner inner rfl
  | bool b | int n | float x | str s | obj entries =>
    simp only [flattenItem, ht]
    exact FieldResult.answers_error (by simp)

/-- Where a type asks for objects, an item stands for itself. -/
theorem answers_flattenItem_named {item : TypeRef} {name : String} (ht : item.nullable = .named name)
    (hc : schema.isComposite item.base = true) {here : ItemPlace} {there : Json.Path} {value : Json}
    (hv : value ≠ .null) :
    (flattenItem schema item here there value).Answers (HasShape item value) (objectsAt there value) := by
  rw [hasShape_named ht hv]
  cases value with
  | null => exact absurd rfl hv
  | obj entries =>
    simp only [flattenItem, ht, objectsAt]
    exact FieldResult.answers_child rfl
  | bool b | int n | float x | str s | arr items =>
    simp only [flattenItem, ht, hc, ↓reduceIte]
    exact FieldResult.answers_error (by simp [kindOf])

/-- Arrays are flattened to the objects in them, if they have the shape of the type of their items. -/
theorem answers_flattenItems {item : TypeRef} (hc : schema.isComposite item.base = true)
    (hp : item.isProper = true) (place : ItemPlace) (path : Json.Path) (i : Nat) (items : List Json) :
    (flattenItems schema item place path i items).Answers (∀ x ∈ items, HasShape item x) (objectsAmong path i items) :=
  match items with
  | [] => by
    rw [flattenItems, objectsAmong]
    exact FieldResult.answers_empty (by simp)
  | value :: rest => by
    rw [flattenItems_cons, objectsAmong, List.forall_mem_cons]
    refine .append ?_ (answers_flattenItems hc hp place path (i + 1) rest)
    by_cases hnull : value = .null
    · subst hnull
      simp only [flattenItem, objectsAt, hasShape_null]
      cases hn : item.isNonNull with
      | true => exact FieldResult.answers_error (by simp)
      | false => exact FieldResult.answers_empty rfl
    · rcases nullable_of_isProper hp with ⟨name, ht⟩ | ⟨next, ht, hnext⟩
      · exact answers_flattenItem_named ht hc hnull
      · refine answers_flattenItem_list ht hnull fun inner hinner => ?_
        subst hinner
        have hbase : schema.isComposite next.base = true := by
          rw [← base_nullable, ht] at hc
          exact hc
        exact answers_flattenItems hbase hnext (place.item i) (path ++ [.index i]) 0 inner
termination_by sizeOf items

/-! ## Fields that are there -/

variable {frame : Frame} {key : String} {type : TypeRef} {parent v : Located}

/-- A field with parts that is there stands for the objects in its value. -/
theorem answers_checkField (hc : schema.isComposite type.base = true) (hp : type.isProper = true)
    (hv : parent.field? key = some v) :
    (checkField schema frame key type parent).Answers (HasShape type v.value) (objectsAt v.path v.value) := by
  obtain ⟨path, value⟩ := v
  have hinput := Schema.isInputType_eq_false type hc
  simp only [checkField, hv, hinput, Bool.false_eq_true, ↓reduceIte]
  rcases nullable_of_isProper hp with ⟨name, ht⟩ | ⟨item, ht, hitem⟩
  · have hname : schema.isComposite name = true := by
      rw [← base_nullable, ht] at hc
      exact hc
    by_cases hnull : value = .null
    · subst hnull
      simp only [ht, objectsAt, hasShape_null, hname, ↓reduceIte]
      cases hn : type.isNonNull with
      | true => exact FieldResult.answers_error (by simp)
      | false => exact FieldResult.answers_empty rfl
    · rw [hasShape_named ht hnull]
      cases value with
      | null => exact absurd rfl hnull
      | obj entries =>
        simp only [ht, hname, kindOf, objectsAt]
        exact FieldResult.answers_child trivial
      | bool b | int n | float x | str s | arr items =>
        simp only [ht, hname, kindOf]
        exact FieldResult.answers_error (by simp)
  · by_cases hnull : value = .null
    · subst hnull
      simp only [ht, objectsAt, hasShape_null]
      cases hn : type.isNonNull with
      | true => exact FieldResult.answers_error (by simp)
      | false => exact FieldResult.answers_empty rfl
    · rw [hasShape_list ht hnull]
      cases value with
      | null => exact absurd rfl hnull
      | arr items =>
        have hbase : schema.isComposite item.base = true := by
          rw [← base_nullable, ht] at hc
          exact hc
        have hinner := answers_flattenItems hbase hitem ⟨key, []⟩ path 0 items
        simp only [ht, objectsAt, flatten]
        simpa using hinner
      | bool b | int n | float x | str s | obj entries =>
        simp only [ht]
        exact FieldResult.answers_error (by simp)

/-- **The check of a field that is there finds no mismatch if and only if its value fits.** -/
theorem errors_checkField_eq_nil (ho : schema.isOutputType type = true) (hp : type.isProper = true)
    (hv : parent.field? key = some v) :
    (checkField schema frame key type parent).errors = [] ↔ Fits schema type v.value := by
  rw [Fits]
  cases hl : schema.isLeaf type.base with
  | true =>
    have hinput := Schema.isInputType_of_isLeaf type hl
    simp [checkField, hv, hinput]
  | false =>
    have hc := Schema.isComposite_of_isOutput ho hl
    have hinput := Schema.isInputType_eq_false type hc
    simp only [hinput, Bool.false_eq_true, ↓reduceIte]
    exact (answers_checkField hc hp hv).errors

/-- The check of a field that is missing finds a mismatch if and only if the frame expects the field. -/
theorem errors_checkField_of_none (hv : parent.field? key = none) :
    (checkField schema frame key type parent).errors = [] ↔ frame.expects parent = false := by
  simp only [checkField, hv]
  cases frame.expects parent <;> simp [FieldResult.error]

/-- **The check of a field goes on with objects in its value**, all of them if the value fits. -/
theorem mem_children_checkField (hc : schema.isComposite type.base = true) (hp : type.isProper = true) {o : Located}
    (h : o ∈ (checkField schema frame key type parent).children) :
    ∃ v, parent.field? key = some v ∧ o ∈ objectsAt v.path v.value := by
  cases hv : parent.field? key with
  | none =>
    simp only [checkField, hv] at h
    split at h <;> cases h
  | some v => exact ⟨v, rfl, (answers_checkField hc hp hv).sound o h⟩

end

end FixtureCheck.Fixture
