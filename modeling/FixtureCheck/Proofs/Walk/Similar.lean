import FixtureCheck.Proofs.Walk.Within
import Mathlib.Data.List.Forall2

/-!
# Checks of similar values

The check of a field tells values apart by their kinds, and arrays by their items as well, unless the field takes
values as a whole. So it finds the same mismatches in values of one kind, with items of one kind and so on
(`IsSimilarity`), and goes on with values that are similar again (`similar_flattenItems`, `similar_checkField`).
-/

namespace FixtureCheck.Fixture

open GraphQL (Schema TypeRef)

/-- **Does a relation of values at a path keep kinds, and the items of arrays?** -/
structure IsSimilarity (R : Json.Path → Json → Json → Prop) : Prop where
  kindOf_eq {path : Json.Path} {value value' : Json} : R path value value' → kindOf value = kindOf value'
  length_eq {path : Json.Path} {items items' : List Json} : R path (.arr items) (.arr items') →
    items.length = items'.length
  item {path : Json.Path} {items items' : List Json} : R path (.arr items) (.arr items') →
    ∀ (i : Nat) (value value' : Json), items[i]? = some value → items'[i]? = some value' →
      R (path ++ [.index i]) value value'

/-- Do the results of checks report the same and go on with similar values at the same places? -/
structure FieldResult.Similar (R : Json.Path → Json → Json → Prop) (a b : FieldResult) : Prop where
  errors : a.errors = b.errors
  children : List.Forall₂ (fun v v' => v'.path = v.path ∧ R v.path v.value v'.value) a.children b.children

namespace FieldResult.Similar

variable {R : Json.Path → Json → Json → Prop}

theorem refl_of_children_eq_nil {a : FieldResult} (h : a.children = []) : a.Similar R a :=
  ⟨rfl, by rw [h]; exact .nil⟩

theorem empty : FieldResult.Similar R {} {} := ⟨rfl, .nil⟩

theorem error (m : Mismatch) : FieldResult.Similar R (.error m) (.error m) := ⟨rfl, .nil⟩

theorem child {path : Json.Path} {value value' : Json} (h : R path value value') :
    FieldResult.Similar R (.child ⟨path, value⟩) (.child ⟨path, value'⟩) := ⟨rfl, .cons ⟨rfl, h⟩ .nil⟩

theorem append {a a' b b' : FieldResult} (ha : a.Similar R a') (hb : b.Similar R b') :
    (a.append b).Similar R (a'.append b') :=
  ⟨congrArg₂ (· ++ ·) ha.errors hb.errors, List.rel_append ha.children hb.children⟩

end FieldResult.Similar

section

variable {schema : Schema} {R : Json.Path → Json → Json → Prop} {item : TypeRef} {path : Json.Path}
  {value value' : Json}

theorem exists_arr_of_kindOf (h : kindOf value = .array) : ∃ items, value = .arr items := by
  cases value with
  | arr items => exact ⟨items, rfl⟩
  | null | bool b | int n | float x | str s | obj entries => cases h

/-! ## Items of arrays -/

/-- What comes of an item that is no array where the type asks for one. -/
theorem flattenItem_of_list {next : TypeRef} (ht : item.nullable = .list next) (hk : kindOf value ≠ .array)
    (here : ItemPlace) : flattenItem schema item here path value =
      if kindOf value = .null then if item.isNonNull then .error (.nullItem here) else {}
      else .error (.itemNotArray here (kindOf value)) := by
  unfold flattenItem
  cases value with
  | arr items => exact absurd rfl hk
  | null => rfl
  | bool b | int n | float x | str s | obj entries => simp [ht, kindOf]

/-- What comes of an item where the type asks for no array. -/
theorem flattenItem_of_ne_list (ht : ∀ next, item.nullable ≠ .list next) (here : ItemPlace) :
    flattenItem schema item here path value =
      if kindOf value = .null then if item.isNonNull then .error (.nullItem here) else {}
      else if schema.isComposite item.base = true ∧ kindOf value ≠ .object then
        .error (.itemNotObject here (kindOf value))
      else .child ⟨path, value⟩ := by
  unfold flattenItem
  cases hn : item.nullable with
  | list next => exact absurd hn (ht next)
  | named name | nonNull inner =>
    cases value <;> simp [kindOf]

/-- What comes of a similar item is similar. -/
theorem similar_flattenItem (hR : IsSimilarity R) {here : ItemPlace} (h : R path value value')
    (hinner : ∀ next inner inner', value = .arr inner → value' = .arr inner' →
      (flattenItems schema next here path 0 inner).Similar R (flattenItems schema next here path 0 inner')) :
    (flattenItem schema item here path value).Similar R (flattenItem schema item here path value') := by
  have hk := hR.kindOf_eq h
  cases ht : item.nullable with
  | list next =>
    by_cases harr : kindOf value = .array
    · obtain ⟨inner, rfl⟩ := exists_arr_of_kindOf harr
      obtain ⟨inner', rfl⟩ := exists_arr_of_kindOf (hk ▸ harr)
      simpa only [flattenItem, ht] using hinner next inner inner' rfl rfl
    · rw [flattenItem_of_list ht harr, flattenItem_of_list ht (hk ▸ harr), hk]
      refine .refl_of_children_eq_nil ?_
      split
      · split <;> rfl
      · rfl
  | named name | nonNull inner =>
    rw [flattenItem_of_ne_list (by simp [ht]), flattenItem_of_ne_list (by simp [ht]), hk]
    split
    · refine .refl_of_children_eq_nil ?_
      split <;> rfl
    · split
      · exact .error _
      · exact .child h

/-- **The items of similar arrays are similar**, with the same mismatches. -/
theorem similar_flattenItems (hR : IsSimilarity R) {item : TypeRef} {place : ItemPlace} {path : Json.Path} {i : Nat}
    {items items' : List Json}
    (length : items.length = items'.length)
    (each : ∀ (j : Nat) (value value' : Json), items[j]? = some value → items'[j]? = some value' →
      R (path ++ [.index (i + j)]) value value') :
    (flattenItems schema item place path i items).Similar R (flattenItems schema item place path i items') :=
  match items, items' with
  | [], [] => by
    rw [flattenItems]
    exact .empty
  | value :: rest, value' :: rest' => by
    have hrest : ∀ (j : Nat) (value value' : Json), rest[j]? = some value → rest'[j]? = some value' →
        R (path ++ [.index (i + 1 + j)]) value value' := by
      intro j value value' hv hv'
      have hsum : i + 1 + j = i + (j + 1) := by omega
      rw [hsum]
      exact each (j + 1) value value' hv hv'
    have hfirst : R (path ++ [.index i]) value value' := each 0 value value' rfl rfl
    rw [flattenItems_cons, flattenItems_cons]
    refine .append (similar_flattenItem hR hfirst ?_) (similar_flattenItems hR (Nat.succ.inj length) hrest)
    intro next inner inner' hv hv'
    subst hv hv'
    refine similar_flattenItems hR (hR.length_eq hfirst) fun j value value' hv hv' => ?_
    rw [Nat.zero_add]
    exact hR.item hfirst j value value' hv hv'
termination_by sizeOf items

/-! ## Fields -/

variable {frame : Frame} {key : String} {type : TypeRef} {u u' v : Located}

/-- What comes of the value of a field that is no array where the type asks for one. -/
theorem checkField_of_list {next : TypeRef} (hv : u.field? key = some v) (hi : schema.isInputType type = false)
    (ht : type.nullable = .list next) (hk : kindOf v.value ≠ .array) :
    checkField schema frame key type u =
      if kindOf v.value = .null ∧ type.isNonNull = false then {} else .error (.notArray key (kindOf v.value)) := by
  obtain ⟨path, value⟩ := v
  simp only [checkField, hv, hi, Bool.false_eq_true, ↓reduceIte, ht]
  cases value with
  | arr items => exact absurd rfl hk
  | null => cases type.isNonNull <;> simp [kindOf]
  | bool b | int n | float x | str s | obj entries => simp [kindOf]

/-- What comes of the value of a field where the type asks for an object. -/
theorem checkField_of_named {name : String} (hv : u.field? key = some v) (hi : schema.isInputType type = false)
    (ht : type.nullable = .named name) :
    checkField schema frame key type u =
      if kindOf v.value = .null ∧ type.isNonNull = false then {}
      else if schema.isComposite name = false then .error (.unexpectedType key (.named name))
      else if kindOf v.value = .object then .child v else .error (.notObject key (kindOf v.value)) := by
  obtain ⟨path, value⟩ := v
  simp only [checkField, hv, hi, Bool.false_eq_true, ↓reduceIte, ht]
  cases value with
  | null => cases hc : schema.isComposite name <;> cases type.isNonNull <;> simp [kindOf, hc]
  | bool b | int n | float x | str s | arr items | obj entries => simp [kindOf]

/-- A mark for non-null on another one stands for no type: nothing is asked of the value of a field. -/
theorem checkField_of_nonNull {next : TypeRef} (hv : u.field? key = some v) (hi : schema.isInputType type = false)
    (ht : type.nullable = .nonNull next) : checkField schema frame key type u = {} := by
  obtain ⟨path, value⟩ := v
  simp only [checkField, hv, hi, Bool.false_eq_true, ↓reduceIte, ht]

/-- An object is expected to have the fields that one with the same name of its type has, if both are empty or not. -/
theorem expects_congr {values : List Located} (hempty : u.isEmptyObject = u'.isEmptyObject)
    (ht : typename? u.value frame.typenameKey = typename? u'.value frame.typenameKey) :
    frame.expects u = Frame.expects { frame with values } u' := by
  unfold Frame.expects
  dsimp only
  split
  · rw [hempty]
    rfl
  · rw [hempty]
    rfl
  · rw [Frame.isReached, Frame.isReached, ht]

/-- **The check of a field finds the same in similar values**, and goes on with similar values; where it takes values as
a whole, it has to take both for the same. -/
theorem similar_checkField (hR : IsSimilarity R) {values : List Located} (hpath : u'.path = u.path)
    (hempty : u.isEmptyObject = u'.isEmptyObject)
    (ht : typename? u.value frame.typenameKey = typename? u'.value frame.typenameKey)
    (hfield : u.value.field? key = none ∧ u'.value.field? key = none ∨
      ∃ inner inner', u.value.field? key = some inner ∧ u'.value.field? key = some inner' ∧
        if schema.isInputType type = true then GraphQL.misfits schema type inner = GraphQL.misfits schema type inner'
        else R (u.path ++ [.key key]) inner inner') :
    (checkField schema frame key type u).Similar R (checkField schema { frame with values } key type u') := by
  rcases hfield with ⟨hv, hv'⟩ | ⟨inner, inner', hv, hv', hinner⟩
  · simp only [checkField, Located.field?, hv, hv', Option.map_none, ← expects_congr hempty ht]
    refine .refl_of_children_eq_nil ?_
    split <;> rfl
  have hw : u.field? key = some ⟨u.path ++ [.key key], inner⟩ := by rw [Located.field?, hv]; rfl
  have hw' : u'.field? key = some ⟨u.path ++ [.key key], inner'⟩ := by rw [Located.field?, hv', hpath]; rfl
  split at hinner
  · rename_i hi
    simp only [checkField, hw, hw', hi, ↓reduceIte, hinner]
    exact .refl_of_children_eq_nil rfl
  · rename_i hi
    rw [Bool.not_eq_true] at hi
    have hk := hR.kindOf_eq hinner
    cases hn : type.nullable with
    | list next =>
      by_cases harr : kindOf inner = .array
      · obtain ⟨items, rfl⟩ := exists_arr_of_kindOf harr
        obtain ⟨items', rfl⟩ := exists_arr_of_kindOf (hk ▸ harr)
        simp only [checkField, hw, hw', hi, Bool.false_eq_true, ↓reduceIte, hn, flatten]
        refine similar_flattenItems hR (hR.length_eq hinner) fun j value value' hj hj' => ?_
        rw [Nat.zero_add]
        exact hR.item hinner j value value' hj hj'
      · rw [checkField_of_list hw hi hn harr, checkField_of_list hw' hi hn (hk ▸ harr)]
        simp only [hk]
        refine .refl_of_children_eq_nil ?_
        split <;> rfl
    | named name =>
      rw [checkField_of_named hw hi hn, checkField_of_named hw' hi hn]
      simp only [hk]
      split
      · exact .empty
      · split
        · exact .error _
        · split
          · exact .child hinner
          · exact .error _
    | nonNull next =>
      rw [checkField_of_nonNull hw hi hn, checkField_of_nonNull hw' hi hn]
      exact .empty

end

end FixtureCheck.Fixture
