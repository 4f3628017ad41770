import FixtureCheck.Proofs.Query.Rewritten
import FixtureCheck.Proofs.Walk.Ordinary

/-!
# Values with names of types added

`Json.Named` relates a value to one in which objects at some places have the name of a type added under `__typename`.
All else is the same, so the value at a place in the one is named like that at the place in the other
(`Json.Named.get?`), values fit the same types (`fits_of_named`), and the objects in them are at the same places
(`forall₂_objectsAt_of_named`).
-/

namespace FixtureCheck

open GraphQL (Schema TypeRef)

/-- **Is a value another one with names of types added** to the objects at places that are asked? -/
inductive Json.Named (asked : Json.Path → Prop) : Json.Path → Json → Json → Prop where
  | atom {path : Json.Path} {value : Json} (h : value.IsAtom) : Named asked path value value
  | arr {path : Json.Path} {items items' : List Json} (length : items.length = items'.length)
      (each : ∀ (i : Nat) (value value' : Json), items[i]? = some value → items'[i]? = some value' →
        Named asked (path ++ [.index i]) value value') :
      Named asked path (.arr items) (.arr items')
  | obj {path : Json.Path} {entries entries' : List (String × Json)}
      (keys : ∀ key, key ∈ entries'.map Prod.fst ↔ key ∈ entries.map Prod.fst ∨ asked path ∧ key = "__typename")
      (new : asked path → "__typename" ∉ entries.map Prod.fst)
      (name : asked path → ∃ text, Json.lookup entries' "__typename" = some (.str text))
      (each : ∀ (key : String) (value value' : Json), Json.lookup entries key = some value →
        Json.lookup entries' key = some value' → Named asked (path ++ [.key key]) value value') :
      Named asked path (.obj entries) (.obj entries')

namespace Json

variable {asked : Json.Path → Prop} {path : Json.Path} {value value' : Json}

theorem IsAtom.kindOf_ne (h : value.IsAtom) : Fixture.kindOf value ≠ .object := by
  cases value with
  | obj entries => exact absurd rfl (h.2 entries)
  | null | bool b | int n | float x | str s | arr items => simp [Fixture.kindOf]

theorem IsAtom.field?_eq_none (h : value.IsAtom) {key : String} : value.field? key = none := by
  cases value with
  | obj entries => exact absurd rfl (h.2 entries)
  | null | bool b | int n | float x | str s | arr items => rfl

namespace Named

theorem kindOf_eq (h : Named asked path value value') : Fixture.kindOf value' = Fixture.kindOf value := by
  cases h <;> rfl

/-- A value that an object has is there with names added. -/
theorem exists_field? (h : Named asked path value value') {key : String} {inner : Json}
    (hv : value.field? key = some inner) :
    ∃ inner', value'.field? key = some inner' ∧ Named asked (path ++ [.key key]) inner inner' := by
  cases h with
  | atom h =>
    rw [h.field?_eq_none] at hv
    cases hv
  | arr _ _ => cases hv
  | @obj _ entries entries' keys new name each =>
    have hkey : key ∈ entries'.map Prod.fst := by
      rw [keys]
      left
      rw [← lookup_isSome_iff]
      exact Option.isSome_iff_exists.2 ⟨inner, hv⟩
    rw [← lookup_isSome_iff] at hkey
    obtain ⟨inner', hv'⟩ := Option.isSome_iff_exists.1 hkey
    exact ⟨inner', hv', each key inner inner' hv hv'⟩

/-- A value that an object does not have is not there with names added, unless it is a name. -/
theorem field?_eq_none (h : Named asked path value value') {key : String} (hv : value.field? key = none)
    (hkey : ¬ (asked path ∧ key = "__typename")) : value'.field? key = none := by
  cases h with
  | atom h => exact hv
  | arr _ _ => rfl
  | @obj _ entries entries' keys new name each =>
    have hno : key ∉ entries'.map Prod.fst := by
      rw [keys, not_or]
      refine ⟨fun hmem => ?_, hkey⟩
      rw [← lookup_isSome_iff] at hmem
      rw [field?] at hv
      rw [hv] at hmem
      cases hmem
    rw [← lookup_isSome_iff] at hno
    simpa [field?] using hno

/-- An object at a place that is asked has a name, and did not have one. -/
theorem field?_typename (h : Named asked path value value') (hasked : asked path)
    (hk : Fixture.kindOf value = .object) :
    value.field? "__typename" = none ∧ ∃ text, value'.field? "__typename" = some (.str text) := by
  cases h with
  | atom h => exact absurd hk h.kindOf_ne
  | arr _ _ => cases hk
  | @obj _ entries entries' keys new name each =>
    refine ⟨?_, name hasked⟩
    have hno := new hasked
    rw [← lookup_isSome_iff] at hno
    simpa [field?] using hno

/-- Texts and other values without parts under a key are the same. -/
theorem typename?_eq (h : Named asked path value value') {key : String}
    (hkey : ¬ (asked path ∧ key = "__typename")) :
    Fixture.typename? value' (some key) = Fixture.typename? value (some key) := by
  by_cases hempty : key = ""
  · subst hempty
    rfl
  rw [Fixture.typename?_of_ne hempty, Fixture.typename?_of_ne hempty]
  cases hv : value.field? key with
  | none => rw [h.field?_eq_none hv hkey]
  | some inner =>
    obtain ⟨inner', hv', hinner⟩ := h.exists_field? hv
    rw [hv']
    cases hinner <;> rfl

/-- Where nothing is asked, an object is empty if it was. -/
theorem isEmptyObject_eq {v v' : Fixture.Located} (h : Named asked path v.value v'.value) (hno : ¬ asked path) :
    v'.isEmptyObject = v.isEmptyObject := by
  obtain ⟨p, value⟩ := v
  obtain ⟨p', value'⟩ := v'
  cases h with
  | atom _ => rfl
  | arr _ _ => rfl
  | @obj _ entries entries' keys new name each =>
    have hsame : ∀ key, key ∈ entries'.map Prod.fst ↔ key ∈ entries.map Prod.fst := by
      intro key
      rw [keys]
      simp [hno]
    cases entries with
    | nil =>
      cases entries' with
      | nil => rfl
      | cons first rest => exact absurd ((hsame first.1).1 (by simp)) (by simp)
    | cons first rest =>
      cases entries' with
      | nil => exact absurd ((hsame first.1).2 (by simp)) (by simp)
      | cons _ _ => rfl

/-- **The value at a place is the one at the place with names added.** -/
theorem get? : ∀ {path : Json.Path} {value value' : Json} (q : Json.Path) {inner : Json},
    Named asked path value value' → value.get? q = some inner →
      ∃ inner', value'.get? q = some inner' ∧ Named asked (path ++ q) inner inner'
  | path, value, value', [], inner, h, hv => by
    rw [Json.get?] at hv
    cases hv
    refine ⟨value', by rw [Json.get?], ?_⟩
    rw [List.append_nil]
    exact h
  | path, value, value', step :: q, inner, h, hv => by
    cases h with
    | atom h =>
      cases value with
      | arr items => exact absurd rfl (h.1 items)
      | obj entries => exact absurd rfl (h.2 entries)
      | null | bool b | int n | float x | str s => simp [Json.get?] at hv
    | @arr _ items items' length each =>
      cases step with
      | key name => simp [Json.get?] at hv
      | index i =>
        rw [Json.get?] at hv
        obtain ⟨item, hi, hv⟩ := Option.bind_eq_some_iff.1 hv
        have hlt : i < items'.length := by
          rw [← length]
          exact (List.getElem?_eq_some_iff.1 hi).1
        obtain ⟨inner', hv', hinner⟩ := get? q (each i item _ hi (List.getElem?_eq_getElem hlt)) hv
        refine ⟨inner', ?_, ?_⟩
        · rw [Json.get?, List.getElem?_eq_getElem hlt]
          exact hv'
        · rw [List.append_assoc] at hinner
          exact hinner
    | @obj _ entries entries' keys new name each =>
      cases step with
      | index i => simp [Json.get?] at hv
      | key key =>
        rw [Json.get?] at hv
        obtain ⟨item, hi, hv⟩ := Option.bind_eq_some_iff.1 hv
        have hobj : Named asked path (.obj entries) (.obj entries') := .obj keys new name each
        obtain ⟨item', hi', hitem⟩ := hobj.exists_field? hi
        obtain ⟨inner', hv', hinner⟩ := get? q hitem hv
        refine ⟨inner', ?_, ?_⟩
        · rw [Json.get?, show Json.lookup entries' key = some item' from hi']
          exact hv'
        · rw [List.append_assoc] at hinner
          exact hinner

end Named

end Json

namespace Fixture

open Json (Named)

variable {schema : Schema} {asked : Json.Path → Prop} {path : Json.Path} {value value' : Json} {type : TypeRef}

/-! ## Types of values -/

/-- A type without parts that takes one array or object takes them all. -/
theorem leafCause?_eq_none {name : String} (hk : kindOf value' = kindOf value)
    (hparts : kindOf value = .array ∨ kindOf value = .object) (h : GraphQL.leafCause? schema name value = none) :
    GraphQL.leafCause? schema name value' = none := by
  unfold GraphQL.leafCause? at h ⊢
  cases hd : schema.details? name with
  | none => rfl
  | some details =>
    rw [hd] at h
    cases details with
    | scalar =>
      -- standard types take none, others take all
      have hcause : ∀ {v : Json}, kindOf v = .array ∨ kindOf v = .object →
          (GraphQL.scalarCause? name v = none ↔ name ∉ ["Int", "Float", "String", "Boolean", "ID"]) := by
        intro v hv
        unfold GraphQL.scalarCause?
        cases v <;> simp [kindOf] at hv
        all_goals split <;> simp_all [GraphQL.integer?]
      exact (hcause (hk ▸ hparts)).2 ((hcause hparts).1 h)
    | enum members =>
      cases value <;> simp [kindOf] at hparts
      all_goals simp [GraphQL.enumCause?] at h
    | input fields isOneOf => cases h
    | object interfaces fields | interface interfaces fields | union members => rfl

/-- A type without parts takes null and what it has no cause against. -/
theorem misfitsAt_named_eq_nil {name : String} (hl : schema.isLeaf name = true) (path : Json.Path) :
    GraphQL.misfitsAt schema path (.named name) value = [] ↔
      value = .null ∨ GraphQL.leafCause? schema name value = none := by
  have hinput : ∀ fields isOneOf, schema.details? name ≠ some (.input fields isOneOf) := by
    intro fields isOneOf hno
    obtain ⟨details, hd, hleaf⟩ := GraphQL.Schema.typeIs_iff.1 hl
    rw [hd] at hno
    cases hno
    cases hleaf
  cases value with
  | null => simp [GraphQL.misfitsAt]
  | obj entries =>
    rw [GraphQL.misfitsAt]
    split
    · rename_i fields isOneOf hno
      exact absurd hno (hinput fields isOneOf)
    · simp
  | bool b | int n | float x | str s | arr items =>
    rw [GraphQL.misfitsAt]
    all_goals simp

/-- The items of an array take a type if the array takes the list of it. -/
theorem misfitsAt_list_eq_nil {place : Json.Path} {items : List Json} :
    GraphQL.misfitsAt schema place (.list type) (.arr items) = [] ↔ ∀ (i : Nat) (item : Json),
      items[i]? = some item → GraphQL.misfitsAt schema (place ++ [.index i]) type item = [] := by
  rw [GraphQL.misfitsAt, List.flatMap_eq_nil_iff]
  constructor
  · intro h i item hi
    have hmem : (⟨item, List.mem_of_getElem? hi⟩, i) ∈ items.attach.zipIdx := by
      rw [List.mem_zipIdx_iff_getElem?, List.getElem?_attach]
      simp [hi]
    exact h _ hmem
  · rintro h ⟨⟨item, hitem⟩, i⟩ hmem
    rw [List.mem_zipIdx_iff_getElem?, List.getElem?_attach] at hmem
    have hi : items[i]? = some item ∧ item ∈ items := by simpa using hmem
    exact h i item hi.1

/-- Values with names added fit a type that stands for leaves, and lists of them, if they did. -/
theorem misfitsAt_of_named (hl : schema.isLeaf type.base = true) {place : Json.Path}
    (h : Named asked path value value') (hfits : GraphQL.misfitsAt schema place type value = []) :
    GraphQL.misfitsAt schema place type value' = [] := by
  induction type generalizing path value value' place with
  | named name =>
    have hleaf : schema.isLeaf name = true := hl
    cases h with
    | atom _ => exact hfits
    | @arr _ items items' length each =>
      have hkind : kindOf (.arr items') = kindOf (.arr items) := rfl
      rw [misfitsAt_named_eq_nil hleaf] at hfits ⊢
      exact .inr (leafCause?_eq_none hkind (.inl rfl) (hfits.resolve_left (by simp)))
    | @obj _ entries entries' keys new told each =>
      have hkind : kindOf (.obj entries') = kindOf (.obj entries) := rfl
      rw [misfitsAt_named_eq_nil hleaf] at hfits ⊢
      exact .inr (leafCause?_eq_none hkind (.inr rfl) (hfits.resolve_left (by simp)))
  | list item ih =>
    cases h with
    | atom _ => exact hfits
    | @arr _ items items' length each =>
      rw [misfitsAt_list_eq_nil] at hfits ⊢
      intro i item' hi'
      have hlt : i < items.length := by
        rw [length]
        exact (List.getElem?_eq_some_iff.1 hi').1
      have hi := List.getElem?_eq_getElem hlt
      exact ih hl (each i _ item' hi hi') (hfits i _ hi)
    | @obj _ entries entries' keys new name each =>
      rw [GraphQL.misfitsAt] at hfits ⊢
      · exact ih hl (.obj keys new name each) hfits
      all_goals simp
  | nonNull inner ih =>
    have hnull : GraphQL.isNullValue value' = GraphQL.isNullValue value := by
      cases h <;> rfl
    rw [GraphQL.misfitsAt] at hfits ⊢
    rw [hnull]
    split at hfits
    · cases hfits
    · rename_i hno
      rw [if_neg hno]
      exact ih hl h hfits

/-- Values with names added have the shape of a type with parts if they did. -/
theorem hasShape_of_named (h : Named asked path value value') (hshape : HasShape type value) :
    HasShape type value' := by
  induction type generalizing path value value' with
  | named name =>
    rw [HasShape] at hshape ⊢
    rcases hshape with rfl | hobject
    · cases h
      exact .inl rfl
    · exact .inr (h.kindOf_eq.trans hobject)
  | list item ih =>
    rw [HasShape] at hshape ⊢
    rcases hshape with rfl | ⟨items, rfl, hitems⟩
    · cases h
      exact .inl rfl
    · cases h with
      | atom hatom => exact absurd rfl (hatom.1 items)
      | @arr _ _ items' length each =>
        refine .inr ⟨items', rfl, fun inner' hmem => ?_⟩
        obtain ⟨i, hi'⟩ := List.mem_iff_getElem?.1 hmem
        have hlt : i < items.length := by
          rw [length]
          exact (List.getElem?_eq_some_iff.1 hi').1
        have hi := List.getElem?_eq_getElem hlt
        exact ih (each i _ inner' hi hi') (hitems _ (List.mem_of_getElem? hi))
  | nonNull inner ih =>
    rw [HasShape] at hshape ⊢
    refine ⟨?_, ih h hshape.2⟩
    rintro rfl
    cases h
    exact hshape.1 rfl

/-- **Values with names added fit the types that they fitted without.** -/
theorem fits_of_named (ho : schema.isOutputType type = true) (h : Named asked path value value')
    (hfits : Fits schema type value) : Fits schema type value' := by
  cases hl : schema.isLeaf type.base with
  | true =>
    rw [Fits, if_pos (Schema.isInputType_of_isLeaf type hl)] at hfits ⊢
    exact misfitsAt_of_named hl h hfits
  | false =>
    have hinput := Schema.isInputType_eq_false type (Schema.isComposite_of_isOutput ho hl)
    rw [Fits, hinput, if_neg Bool.false_ne_true] at hfits ⊢
    exact hasShape_of_named h hfits

/-! ## Objects in values -/

/-- Does one value stand at the place of another one and is it that one with names added? -/
def Located.Named (asked : Json.Path → Prop) (v v' : Located) : Prop :=
  v'.path = v.path ∧ Json.Named asked v.path v.value v'.value

mutual

/-- **The objects in a value are those in it with names added.** -/
theorem forall₂_objectsAt_of_named {path : Json.Path} : ∀ {value value' : Json}, Named asked path value value' →
    List.Forall₂ (Located.Named asked) (objectsAt path value) (objectsAt path value')
  | .obj entries, value', h => by
    cases h with
    | atom hatom => exact absurd rfl (hatom.2 entries)
    | obj keys new told each =>
      rw [objectsAt, objectsAt]
      exact .cons ⟨rfl, .obj keys new told each⟩ .nil
  | .arr items, value', h => by
    cases h with
    | atom hatom => exact absurd rfl (hatom.1 items)
    | arr length each =>
      rw [objectsAt, objectsAt]
      refine forall₂_objectsAmong_of_named length fun i value value' hv hv' => ?_
      rw [Nat.zero_add]
      exact each i value value' hv hv'
  | .null, value', h | .bool _, value', h | .int _, value', h | .float _, value', h | .str _, value', h => by
    cases h
    exact .nil

theorem forall₂_objectsAmong_of_named {path : Json.Path} {start : Nat} : ∀ {items items' : List Json},
    items.length = items'.length → (∀ (i : Nat) (value value' : Json), items[i]? = some value →
      items'[i]? = some value' → Named asked (path ++ [.index (start + i)]) value value') →
    List.Forall₂ (Located.Named asked) (objectsAmong path start items) (objectsAmong path start items')
  | [], [], _, _ => by
    rw [objectsAmong]
    exact .nil
  | item :: rest, item' :: rest', length, each => by
    rw [objectsAmong, objectsAmong]
    refine List.rel_append (forall₂_objectsAt_of_named (each 0 item item' rfl rfl)) ?_
    refine forall₂_objectsAmong_of_named (Nat.succ.inj length) fun i value value' hv hv' => ?_
    have hsum : start + 1 + i = start + (i + 1) := by omega
    rw [hsum]
    exact each (i + 1) value value' hv hv'

end

/-! ## Counterparts with names -/

section

variable {fixture fixture' : Json} {v w : Located} (h : Named asked [] fixture fixture')

include h

/-- What stands in a fixture stands in it with names added. -/
theorem named_counterpart (hv : v.IsIn fixture) :
    (counterpart fixture' v).IsIn fixture' ∧ v.Named asked (counterpart fixture' v) := by
  rw [Located.IsIn] at hv
  obtain ⟨inner', hv', hinner⟩ := Json.Named.get? v.path h hv
  have hthere : Located.IsIn fixture' ⟨v.path, inner'⟩ := hv'
  have heq : counterpart fixture' v = ⟨v.path, inner'⟩ := counterpart_eq rfl hthere
  rw [heq]
  exact ⟨hthere, rfl, hinner⟩

/-- The value that an object has under a key has its counterpart under the key of the counterpart. -/
theorem field?_counterpart (hv : v.IsIn fixture) {key : String} (hw : v.field? key = some w) :
    (counterpart fixture' v).field? key = some (counterpart fixture' w) := by
  obtain ⟨hthere, -, hnamed⟩ := named_counterpart h hv
  obtain ⟨-, hpath, hvalue⟩ := Located.isIn_field? hv hw
  obtain ⟨inner', hvalue', -⟩ := hnamed.exists_field? hvalue
  have hfield : (counterpart fixture' v).field? key = some ⟨v.path ++ [.key key], inner'⟩ := by
    rw [Located.field?, hvalue']
    rfl
  obtain ⟨hin, -, -⟩ := Located.isIn_field? hthere hfield
  rw [hfield, counterpart_eq hpath.symm hin]

/-- What a counterpart has under a key is the counterpart of what the object has there, unless it is a name. -/
theorem exists_of_field?_counterpart (hv : v.IsIn fixture) {key : String} {w' : Located}
    (hkey : ¬ (asked v.path ∧ key = "__typename")) (hw' : (counterpart fixture' v).field? key = some w') :
    ∃ w, v.field? key = some w ∧ w' = counterpart fixture' w := by
  cases hw : v.field? key with
  | none =>
    have hnone : v.value.field? key = none := Option.map_eq_none_iff.1 hw
    have hnone' := (named_counterpart h hv).2.2.field?_eq_none hnone hkey
    rw [Located.field?, hnone'] at hw'
    cases hw'
  | some w =>
    rw [field?_counterpart h hv hw] at hw'
    exact ⟨w, rfl, (Option.some.inj hw').symm⟩

/-- The objects in a counterpart are the counterparts of the objects. -/
theorem mem_objectsAt_counterpart (hw : w.IsIn fixture) {o' : Located} :
    o' ∈ objectsAt (counterpart fixture' w).path (counterpart fixture' w).value ↔
      ∃ o ∈ objectsAt w.path w.value, o' = counterpart fixture' o := by
  obtain ⟨hthere, -, hnamed⟩ := named_counterpart h hw
  have hall := forall₂_objectsAt_of_named hnamed
  constructor
  · intro ho'
    obtain ⟨o, ho, hoo⟩ := GraphQL.exists_of_mem_forall₂ hall ho'
    exact ⟨o, ho, (counterpart_eq hoo.1 (isIn_objectsAt hthere ho')).symm⟩
  · rintro ⟨o, ho, rfl⟩
    obtain ⟨o', ho', hoo⟩ := GraphQL.exists_of_mem_forall₂ hall.flip ho
    have hin : o'.IsIn fixture' := isIn_objectsAt hthere ho'
    rw [counterpart_eq hoo.1 hin]
    exact ho'

end

end Fixture

end FixtureCheck
