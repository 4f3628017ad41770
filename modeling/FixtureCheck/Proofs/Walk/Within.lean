import FixtureCheck.Proofs.Walk.Place

/-!
# What stands within a value

`Located.Within` relates a value and the values at positions in it. A walk goes on with values within those that it
starts with (`Reaches.exists_within`): neither the types of a query nor those of a schema matter for that. Objects that
have something in common within them have an object in common (`Located.exists_hasObject`).
-/

namespace FixtureCheck.Fixture

open GraphQL (Schema Field Selection TypeRef OutputField)

/-- Does a value stand within another one, at its place? -/
def Located.Within (outer inner : Located) : Prop :=
  ∃ r, inner.path = outer.path ++ r ∧ outer.value.get? r = some inner.value

namespace Located.Within

variable {u v w : Located}

theorem refl (v : Located) : v.Within v := ⟨[], by simp, by simp [Json.get?]⟩

theorem trans (h : u.Within v) (h' : v.Within w) : u.Within w := by
  obtain ⟨r, hp, hg⟩ := h
  obtain ⟨r', hp', hg'⟩ := h'
  refine ⟨r ++ r', by rw [hp', hp, List.append_assoc], ?_⟩
  rw [Json.get?_append, hg]
  exact hg'

/-- What stands within a value of a fixture stands in the fixture. -/
theorem isIn {fixture : Json} (h : u.Within v) (hu : u.IsIn fixture) : v.IsIn fixture := by
  obtain ⟨r, hp, hg⟩ := h
  rw [Located.IsIn] at hu ⊢
  rw [hp, Json.get?_append, hu]
  exact hg

theorem of_field? {key : String} (h : u.field? key = some v) : u.Within v := by
  obtain ⟨inner, hi, rfl⟩ := Option.map_eq_some_iff.1 h
  exact ⟨[.key key], rfl, Json.get?_key hi⟩

theorem of_item {path : Json.Path} {items : List Json} {i : Nat} {item : Json} (h : items[i]? = some item) :
    Located.Within ⟨path, .arr items⟩ ⟨path ++ [.index i], item⟩ :=
  ⟨[.index i], rfl, by simp [Json.get?, h]⟩

end Located.Within

/-! ## Objects in common -/

/-- Does a value hold an object at a place, itself or within it? -/
def Located.HasObject (v : Located) (place : Json.Path) : Prop :=
  ∃ o : Located, o.path = place ∧ v.Within o ∧ kindOf o.value = .object

/-- A value that has something under a key is an object. -/
theorem kindOf_of_get?_key {value inner : Json} {key : String} {r : Json.Path}
    (h : value.get? (.key key :: r) = some inner) : kindOf value = .object := by
  cases value with
  | obj entries => rfl
  | null | bool b | int n | float x | str s | arr items => simp [Json.get?] at h

/-- A step into an object is one to a key. -/
theorem exists_key_of_get? {value inner : Json} {s : Json.Step} {r : Json.Path} (hk : kindOf value = .object)
    (h : value.get? (s :: r) = some inner) : ∃ key, s = .key key := by
  cases s with
  | key key => exact ⟨key, rfl⟩
  | index i => cases value <;> simp_all [Json.get?, kindOf]

/-- Two objects with a value in common within them, one at a place within the other, share an object. -/
theorem Located.hasObject_of_append {u v w : Located} {r : Json.Path} (hv : kindOf v.value = .object)
    (hp : v.path = u.path ++ r) (huw : u.Within w) (hvw : v.Within w) : u.HasObject v.path := by
  obtain ⟨q, hq, hg⟩ := huw
  obtain ⟨q', hq', hg'⟩ := hvw
  have hsame : q = r ++ q' := by
    rw [hq', hp, List.append_assoc] at hq
    exact (List.append_cancel_left hq).symm
  rw [hsame, Json.get?_append] at hg
  obtain ⟨between, hr, hg⟩ := Option.bind_eq_some_iff.1 hg
  refine ⟨⟨v.path, between⟩, rfl, ⟨r, hp, hr⟩, ?_⟩
  cases q' with
  | nil =>
    simp only [Json.get?, Option.some.injEq] at hg hg'
    rw [hg, ← hg']
    exact hv
  | cons s rest =>
    -- the way on from the object is by a key, so what the other one has there is an object as well
    obtain ⟨key, rfl⟩ := exists_key_of_get? hv hg'
    exact kindOf_of_get?_key hg

/-- **Objects with a value in common within them have an object in common.** -/
theorem Located.exists_hasObject {u v w : Located} (hu : kindOf u.value = .object) (hv : kindOf v.value = .object)
    (huw : u.Within w) (hvw : v.Within w) : ∃ place, u.HasObject place ∧ v.HasObject place := by
  have hprefix : u.path <+: v.path ∨ v.path <+: u.path := by
    obtain ⟨q, hq, -⟩ := huw
    obtain ⟨q', hq', -⟩ := hvw
    exact List.prefix_or_prefix_of_prefix ⟨q, hq.symm⟩ ⟨q', hq'.symm⟩
  rcases hprefix with ⟨r, hr⟩ | ⟨r, hr⟩
  · exact ⟨v.path, Located.hasObject_of_append hv hr.symm huw hvw, v, rfl, .refl v, hv⟩
  · exact ⟨u.path, ⟨u, rfl, .refl u, hu⟩, Located.hasObject_of_append hu hr.symm hvw huw⟩

/-! ## What a walk goes on with -/

section

variable {schema : Schema}

/-- Nested arrays are flattened to values within them. -/
theorem within_of_mem_flattenItems {c : Located} {item : TypeRef} {place : ItemPlace} {path : Json.Path} {i : Nat}
    {items : List Json} (h : c ∈ (flattenItems schema item place path i items).children) :
    ∃ j value, items[j]? = some value ∧ Located.Within ⟨path ++ [.index (i + j)], value⟩ c :=
  match items with
  | [] => by simp [flattenItems] at h
  | value :: rest => by
    rw [flattenItems_cons] at h
    rcases List.mem_append.1 h with h | h
    · refine ⟨0, value, rfl, ?_⟩
      unfold flattenItem at h
      split at h
      · split at h <;> simp [FieldResult.error] at h
      · rename_i inner next _
        obtain ⟨j, value', hj, hw⟩ := within_of_mem_flattenItems h
        rw [Nat.zero_add] at hw
        exact .trans (.of_item hj) hw
      · simp [FieldResult.error] at h
      · rw [List.mem_singleton.1 h]
        exact .refl _
      · split at h
        · simp [FieldResult.error] at h
        · rw [List.mem_singleton.1 h]
          exact .refl _
    · obtain ⟨j, value', hj, hw⟩ := within_of_mem_flattenItems h
      have hsum : i + 1 + j = i + (j + 1) := by omega
      exact ⟨j + 1, value', hj, hsum ▸ hw⟩
termination_by sizeOf items

/-- **The check of a field goes on with values within the value of the field.** -/
theorem within_of_mem_checkField {frame : Frame} {key : String} {type : TypeRef} {parent c : Located}
    (h : c ∈ (checkField schema frame key type parent).children) :
    ∃ w, parent.field? key = some w ∧ w.Within c := by
  unfold checkField at h
  cases hv : parent.field? key with
  | none =>
    simp only [hv] at h
    split at h <;> simp [FieldResult.error] at h
  | some w =>
    refine ⟨w, rfl, ?_⟩
    simp only [hv] at h
    split at h
    · simp at h
    split at h
    · split at h <;> simp [FieldResult.error] at h
    · split at h
      · simp at h
      · split at h <;> simp [FieldResult.error] at h
    · rename_i items item hvalue _
      obtain ⟨j, value', hj, hw⟩ := within_of_mem_flattenItems h
      rw [Nat.zero_add] at hw
      have hsame : w = ⟨w.path, .arr items⟩ := by rw [← hvalue]
      rw [hsame]
      exact .trans (.of_item hj) hw
    · simp [FieldResult.error] at h
    · split at h
      · simp [FieldResult.error] at h
      · split at h
        · rw [List.mem_singleton.1 h]
          exact .refl _
        · simp [FieldResult.error] at h
    · simp at h

/-! ## Frames of steps -/

mutual

/-- What fragments and keys for type names keep of a frame holds of the frames of all steps in a set. -/
theorem frame_of_mem_setSteps {P : Frame → Prop} (hset : ∀ frame selections, P frame → P (frame.inSet selections))
    (henter : ∀ frame condition, P frame → P (frame.enter schema condition)) {step : Step}
    {conditions' conditions : List String} {narrowed frame : Frame} {selections : List Selection}
    (hp : step.place? = some (conditions', narrowed)) (hf : P frame)
    (hm : step ∈ setSteps schema conditions selections frame) : P narrowed :=
  match selections with
  | [] => by simp [setSteps] at hm
  | first :: rest => by
    rw [setSteps] at hm
    split at hm
    · rw [List.mem_singleton.1 hm] at hp
      cases hp
    · have hin := hset frame (first :: rest) hf
      simp only [List.mem_cons, List.mem_append] at hm
      rcases hm with rfl | hm | hm
      · cases hp
        exact hin
      · exact frame_of_mem_selectionSteps hset henter hp hin hm
      · exact frame_of_mem_selectionsSteps hset henter hp hin hm

theorem frame_of_mem_selectionsSteps {P : Frame → Prop}
    (hset : ∀ frame selections, P frame → P (frame.inSet selections))
    (henter : ∀ frame condition, P frame → P (frame.enter schema condition)) {step : Step}
    {conditions' conditions : List String} {narrowed frame : Frame} {selections : List Selection}
    (hp : step.place? = some (conditions', narrowed)) (hf : P frame)
    (hm : step ∈ selectionsSteps schema conditions selections frame) : P narrowed :=
  match selections with
  | [] => by simp [selectionsSteps] at hm
  | first :: rest => by
    rw [selectionsSteps, List.mem_append] at hm
    rcases hm with hm | hm
    · exact frame_of_mem_selectionSteps hset henter hp hf hm
    · exact frame_of_mem_selectionsSteps hset henter hp hf hm

theorem frame_of_mem_selectionSteps {P : Frame → Prop}
    (hset : ∀ frame selections, P frame → P (frame.inSet selections))
    (henter : ∀ frame condition, P frame → P (frame.enter schema condition)) {step : Step}
    {conditions' conditions : List String} {narrowed frame : Frame} {selection : Selection}
    (hp : step.place? = some (conditions', narrowed)) (hf : P frame)
    (hm : step ∈ selectionSteps schema conditions selection frame) : P narrowed :=
  match selection with
  | .field f selections => by
    rw [selectionSteps, List.mem_singleton] at hm
    subst hm
    cases hp
    exact hf
  | .spread .. => by simp [selectionSteps] at hm
  | .inline condition _ selections => by
    rw [selectionSteps] at hm
    split at hm
    · rw [List.mem_singleton.1 hm] at hp
      cases hp
    · exact frame_of_mem_setSteps hset henter hp (henter frame condition hf) hm

end

/-- The objects that fragments leave are objects of the frame of the set. -/
theorem values_of_mem_setSteps {step : Step} {conditions' : List String} {narrowed frame : Frame}
    {selections : List Selection} (hp : step.place? = some (conditions', narrowed))
    (hm : step ∈ setSteps schema [] selections frame) : ∀ v ∈ narrowed.values, v ∈ frame.values := by
  refine frame_of_mem_setSteps (P := fun inner => ∀ v ∈ inner.values, v ∈ frame.values) ?_ ?_ hp (fun _ => id) hm
  · intro inner selections h
    rw [Frame.values_inSet]
    exact h
  · intro inner condition h v hv
    cases condition with
    | none => exact h v hv
    | some c => exact h v (List.mem_of_mem_filter hv)

/-- **A walk goes on with values within those that it starts with.** -/
theorem Reaches.exists_within {top selections : List Selection} {start frame : Frame}
    (h : Reaches schema top start selections frame) {v : Located} (hv : v ∈ frame.values) :
    ∃ u ∈ start.values, u.Within v := by
  induction h generalizing v with
  | here => exact ⟨v, hv, .refl v⟩
  | field reached looks nonempty ih =>
    obtain ⟨parent, hparent, hc⟩ := mem_values_below.1 hv
    obtain ⟨u, hu, hw⟩ := ih (values_of_mem_setSteps rfl looks.step parent hparent)
    obtain ⟨w, hfield, hwithin⟩ := within_of_mem_checkField hc
    exact ⟨u, hu, (hw.trans (.of_field? hfield)).trans hwithin⟩

end

end FixtureCheck.Fixture
