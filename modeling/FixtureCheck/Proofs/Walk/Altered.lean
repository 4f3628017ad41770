import FixtureCheck.Proofs.Json.Lookup
import FixtureCheck.Proofs.Walk.Similar

/-!
# Values that are altered inside

`Altered` relates a value to those that come of it if values at some places within are replaced. Where the value itself
is not replaced, both are of one kind and have their parts in common (`Parted`), which makes them similar
(`isSimilarity_parted`). So the check of a field whose value is altered like that goes on with altered values and finds
the same mismatches (`corresponds_checkField`).
-/

namespace FixtureCheck

open GraphQL (Schema TypeRef)

/-- What may be replaced in a value: a relation between values at a path. -/
abbrev Json.Change := Json.Path → Json → Json → Prop

/-- **Is a value another one with values at places inside replaced?** `may` tells what may be replaced by what, and
`whole` what holds of the arrays and objects around. -/
inductive Json.Altered (may whole : Json.Change) : Json.Path → Json → Json → Prop where
  | same (path : Json.Path) (value : Json) : Altered may whole path value value
  | replaced {path : Json.Path} {value value' : Json} (h : may path value value') : Altered may whole path value value'
  | arr {path : Json.Path} {items items' : List Json} (around : whole path (.arr items) (.arr items'))
      (length : items.length = items'.length)
      (each : ∀ (i : Nat) (value value' : Json), items[i]? = some value → items'[i]? = some value' →
        Altered may whole (path ++ [.index i]) value value') :
      Altered may whole path (.arr items) (.arr items')
  | obj {path : Json.Path} {entries entries' : List (String × Json)}
      (around : whole path (.obj entries) (.obj entries')) (keys : entries.map Prod.fst = entries'.map Prod.fst)
      (each : ∀ (key : String) (value value' : Json), Json.lookup entries key = some value →
        Json.lookup entries' key = some value' → Altered may whole (path ++ [.key key]) value value') :
      Altered may whole path (.obj entries) (.obj entries')

/-- Is a value without parts? -/
def Json.IsAtom (value : Json) : Prop := (∀ items, value ≠ .arr items) ∧ ∀ entries, value ≠ .obj entries

/-- Are values the same, or of one kind with parts that are altered? -/
inductive Json.Parted (may whole : Json.Change) (path : Json.Path) : Json → Json → Prop where
  | atom {value : Json} (h : value.IsAtom) : Parted may whole path value value
  | arr {items items' : List Json} (length : items.length = items'.length)
      (each : ∀ (i : Nat) (value value' : Json), items[i]? = some value → items'[i]? = some value' →
        Json.Altered may whole (path ++ [.index i]) value value') :
      Parted may whole path (.arr items) (.arr items')
  | obj {entries entries' : List (String × Json)} (keys : entries.map Prod.fst = entries'.map Prod.fst)
      (each : ∀ (key : String) (value value' : Json), Json.lookup entries key = some value →
        Json.lookup entries' key = some value' → Json.Altered may whole (path ++ [.key key]) value value') :
      Parted may whole path (.obj entries) (.obj entries')

namespace Json

variable {may whole : Json.Change} {path : Json.Path} {value value' : Json}

theorem Parted.refl (path : Json.Path) (value : Json) : Parted may whole path value value := by
  cases value with
  | arr items =>
    refine .arr rfl fun i value value' hv hv' => ?_
    rw [hv] at hv'
    cases hv'
    exact .same _ _
  | obj entries =>
    refine .obj rfl fun key value value' hv hv' => ?_
    rw [hv] at hv'
    cases hv'
    exact .same _ _
  | null | bool b | int n | float x | str s => exact .atom ⟨fun _ h => (nomatch h), fun _ h => (nomatch h)⟩

theorem Altered.parted (h : Altered may whole path value value') (hno : ¬ may path value value') :
    Parted may whole path value value' := by
  cases h with
  | same => exact .refl path value
  | replaced h => exact absurd h hno
  | arr _ length each => exact .arr length each
  | obj _ keys each => exact .obj keys each

/-- An altered value is the same, or replaced, or altered in parts. -/
theorem Altered.eq_or (h : Altered may whole path value value') :
    value = value' ∨ may path value value' ∨ whole path value value' := by
  cases h with
  | same => exact .inl rfl
  | replaced h => exact .inr (.inl h)
  | arr around _ _ => exact .inr (.inr around)
  | obj around _ _ => exact .inr (.inr around)

/-- An object with its first entry altered is altered. -/
theorem Altered.entry {key : String} {rest : List (String × Json)}
    (around : whole path (.obj ((key, value) :: rest)) (.obj ((key, value') :: rest)))
    (h : Altered may whole (path ++ [.key key]) value value') :
    Altered may whole path (.obj ((key, value) :: rest)) (.obj ((key, value') :: rest)) := by
  refine .obj around rfl fun key' inner inner' hv hv' => ?_
  by_cases hk : key = key'
  · subst hk
    simp only [lookup, List.find?_cons_of_pos, beq_self_eq_true, Option.map_some, Option.some.injEq] at hv hv'
    rw [← hv, ← hv']
    exact h
  · simp only [lookup, List.find?_cons_of_neg, beq_iff_eq, hk, not_false_eq_true] at hv hv'
    rw [hv] at hv'
    cases hv'
    exact .same _ _

theorem Parted.kindOf_eq (h : Parted may whole path value value') : Fixture.kindOf value = Fixture.kindOf value' := by
  cases h <;> rfl

/-- Values with parts in common have values under the same keys. -/
theorem Parted.field?_eq (h : Parted may whole path value value') (key : String) :
    value.field? key = none ∧ value'.field? key = none ∨
      ∃ inner inner', value.field? key = some inner ∧ value'.field? key = some inner' ∧
        Altered may whole (path ++ [.key key]) inner inner' := by
  cases h with
  | atom h =>
    cases value with
    | arr items => exact absurd rfl (h.1 items)
    | obj entries => exact absurd rfl (h.2 entries)
    | null | bool b | int n | float x | str s => exact .inl ⟨rfl, rfl⟩
  | arr _ _ => exact .inl ⟨rfl, rfl⟩
  | obj keys each =>
    refine (lookup_eq_none_or (by rw [keys])).imp id fun ⟨inner, inner', hv, hv'⟩ => ?_
    exact ⟨inner, inner', hv, hv', each key inner inner' hv hv'⟩

end Json

namespace Fixture

open Json (Altered Parted)

variable {schema : Schema} {may whole : Json.Change}

/-- Do located values stand at one place, with parts in common? -/
def Located.Corresponds (may whole : Json.Change) (v v' : Located) : Prop :=
  v'.path = v.path ∧ Parted may whole v.path v.value v'.value

/-- Do the results of checks report the same and go on with values that correspond? -/
structure FieldResult.Corresponds (may whole : Json.Change) (a b : FieldResult) : Prop where
  errors : a.errors = b.errors
  children : List.Forall₂ (Located.Corresponds may whole) a.children b.children

/-! ## Items of arrays -/

/-- Is no item of an array replaced as such? -/
def SparesItems (may : Json.Change) : Prop := ∀ path i value value', ¬ may (path ++ [.index i]) value value'

/-- Values with parts in common are similar. -/
theorem isSimilarity_parted (hs : SparesItems may) : IsSimilarity (Parted may whole) where
  kindOf_eq h := h.kindOf_eq
  length_eq h := by
    cases h with
    | atom h => exact absurd rfl (h.1 _)
    | arr length _ => exact length
  item h i value value' hv hv' := by
    cases h with
    | atom h => exact absurd rfl (h.1 _)
    | arr _ each => exact (each i value value' hv hv').parted (hs _ i value value')

/-! ## Fields -/

/-- Objects with parts in common have the same keys. -/
theorem keys_eq {u u' : Located} (h : u.Corresponds may whole u') : u.keys = u'.keys := by
  obtain ⟨path, value⟩ := u
  obtain ⟨path', value'⟩ := u'
  obtain ⟨-, h⟩ := h
  cases h with
  | atom _ => rfl
  | arr _ _ => rfl
  | obj keys _ => exact keys

/-- Objects report the same types under a key if nothing is replaced there. -/
theorem typename?_eq {u u' : Located} {key : String} (h : u.Corresponds may whole u')
    (hno : ∀ value value', ¬ may (u.path ++ [.key key]) value value') :
    typename? u.value (some key) = typename? u'.value (some key) := by
  unfold typename?
  split
  · rfl
  · rfl
  · rename_i key' _ hkey
    cases hkey
    rcases h.2.field?_eq key with ⟨hv, hv'⟩ | ⟨inner, inner', hv, hv', ha⟩
    · rw [hv, hv']
    · rw [hv, hv']
      cases ha.parted (hno inner inner') <;> rfl

/-- Objects with parts in common are both empty or both not. -/
theorem isEmptyObject_eq {u u' : Located} (h : u.Corresponds may whole u') : u.isEmptyObject = u'.isEmptyObject := by
  obtain ⟨path, value⟩ := u
  obtain ⟨path', value'⟩ := u'
  obtain ⟨-, h⟩ := h
  cases h with
  | atom _ => rfl
  | arr _ _ => rfl
  | @obj entries entries' keys _ =>
    cases entries with
    | nil =>
      cases entries' with
      | nil => rfl
      | cons _ _ => cases keys
    | cons _ _ =>
      cases entries' with
      | nil => cases keys
      | cons _ _ => rfl

/-- Does a type that stands for leaves, and lists of them, take both of two values? -/
def TakesBoth (schema : Schema) (type : TypeRef) (value value' : Json) : Prop :=
  GraphQL.misfits schema type value = [] ∧ GraphQL.misfits schema type value' = []

/-- **The check of a field on an altered object goes on with altered values**, and finds the same mismatches, if the
objects report the same types, the field takes values of leaves altered as a whole, and only these are replaced. -/
theorem corresponds_checkField (hs : SparesItems may) {frame : Frame} {values : List Located} {key : String}
    {type : TypeRef} {u u' : Located} (h : u.Corresponds may whole u')
    (ht : typename? u.value frame.typenameKey = typename? u'.value frame.typenameKey)
    (hmay : ∀ value value', may (u.path ++ [.key key]) value value' →
      schema.isInputType type = true ∧ TakesBoth schema type value value')
    (hwhole : ∀ value value', whole (u.path ++ [.key key]) value value' → schema.isInputType type = true →
      TakesBoth schema type value value') :
    (checkField schema frame key type u).Corresponds may whole
      (checkField schema { frame with values } key type u') := by
  have hsimilar : (checkField schema frame key type u).Similar (Parted may whole)
      (checkField schema { frame with values } key type u') := by
    refine similar_checkField (isSimilarity_parted hs) h.1 (isEmptyObject_eq h) ht ?_
    refine (h.2.field?_eq key).imp id fun ⟨inner, inner', hv, hv', ha⟩ => ⟨inner, inner', hv, hv', ?_⟩
    split
    · rename_i hinput
      -- what a leaf is altered to it takes, as it took what was there
      rcases ha.eq_or with rfl | hm | hw
      · rfl
      · obtain ⟨-, h, h'⟩ := hmay _ _ hm
        rw [h, h']
      · obtain ⟨h, h'⟩ := hwhole _ _ hw hinput
        rw [h, h']
    · rename_i hinput
      exact ha.parted fun hm => hinput (hmay _ _ hm).1
  exact ⟨hsimilar.errors, hsimilar.children⟩

end Fixture

end FixtureCheck
