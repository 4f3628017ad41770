import FixtureCheck.Json.Basic

/-!
# Entries under keys

An object is read by looking keys up. What is found under a key is an entry of the object (`mem_of_lookup`), and where
no key is there twice every entry is found (`lookup_eq_some_iff`), in whatever order they come (`lookup_eq_of_perm`).
-/

namespace FixtureCheck.Json

variable {entries entries' : List (String × Json)} {key : String} {value : Json}

theorem any_key_iff : entries.any (·.1 == key) = (lookup entries key).isSome := by
  rw [lookup, Option.isSome_map, Bool.eq_iff_iff, List.any_eq_true, List.find?_isSome]

/-- Something is found under the keys that are there. -/
theorem lookup_isSome_iff : (lookup entries key).isSome = true ↔ key ∈ entries.map Prod.fst := by
  simp [lookup]

/-- **What is found under a key is an entry with that key.** -/
theorem mem_of_lookup (h : lookup entries key = some value) : (key, value) ∈ entries := by
  obtain ⟨⟨key', value'⟩, hfind, rfl⟩ := Option.map_eq_some_iff.1 h
  obtain rfl : key' = key := by simpa using List.find?_some hfind
  exact List.mem_of_find?_eq_some hfind

/-- **An object without a key that is there twice has its entries under their keys.** -/
theorem lookup_eq_some_iff (hn : (entries.map Prod.fst).Nodup) :
    lookup entries key = some value ↔ (key, value) ∈ entries := by
  refine ⟨mem_of_lookup, fun h => ?_⟩
  obtain ⟨before, after, rfl⟩ := List.append_of_mem h
  rw [List.map_append, List.nodup_append] at hn
  have hnone : before.find? (·.1 == key) = none := by
    rw [List.find?_eq_none]
    intro entry hentry
    have hne : entry.1 ≠ key := hn.2.2 entry.1 (List.mem_map_of_mem hentry) key (by simp)
    simpa using hne
  simp [lookup, List.find?_append, hnone]

/-- In which order the entries come does not matter for what is found. -/
theorem lookup_eq_of_perm (hn : (entries.map Prod.fst).Nodup) (h : entries.Perm entries') :
    lookup entries key = lookup entries' key := by
  have hn' : (entries'.map Prod.fst).Nodup := (h.map _).nodup_iff.1 hn
  refine Option.ext fun value => ?_
  rw [lookup_eq_some_iff hn, lookup_eq_some_iff hn', h.mem_iff]

/-- Objects in which the same is found under every key have the same entries, in some order. -/
theorem perm_of_lookup_eq (hn : (entries.map Prod.fst).Nodup) (hn' : (entries'.map Prod.fst).Nodup)
    (h : ∀ key, lookup entries key = lookup entries' key) : entries.Perm entries' := by
  have hnodup : ∀ {entries : List (String × Json)}, (entries.map Prod.fst).Nodup → entries.Nodup := fun hn =>
    List.Pairwise.of_map Prod.fst (fun _ _ hne heq => hne (congrArg Prod.fst heq)) hn
  refine (List.perm_ext_iff_of_nodup (hnodup hn) (hnodup hn')).2 fun ⟨key, value⟩ => ?_
  rw [← lookup_eq_some_iff hn, ← lookup_eq_some_iff hn', h key]

/-- Under a key that both objects have or neither has, both have values or neither has one. -/
theorem lookup_eq_none_or (h : key ∈ entries.map Prod.fst ↔ key ∈ entries'.map Prod.fst) :
    lookup entries key = none ∧ lookup entries' key = none ∨
      ∃ inner inner', lookup entries key = some inner ∧ lookup entries' key = some inner' := by
  rw [← lookup_isSome_iff, ← lookup_isSome_iff] at h
  cases hv : lookup entries key with
  | none => exact .inl ⟨rfl, by simpa [hv] using h⟩
  | some inner =>
    obtain ⟨inner', hv'⟩ := Option.isSome_iff_exists.1 (h.1 (by rw [hv]; rfl))
    exact .inr ⟨inner, inner', rfl, hv'⟩

/-- The only value of an object with one entry. -/
theorem lookup_singleton {other : String} {value' : Json} (h : lookup [(key, value)] other = some value') :
    other = key ∧ value' = value :=
  Prod.mk.inj (List.mem_singleton.1 (mem_of_lookup h))

/-- The values of an object are smaller than the object. -/
theorem sizeOf_lt_of_lookup (h : lookup entries key = some value) : sizeOf value < sizeOf (obj entries) := by
  have hlt := List.sizeOf_lt_of_mem (mem_of_lookup h)
  simp only [Prod.mk.sizeOf_spec, obj.sizeOf_spec] at hlt ⊢
  omega

end FixtureCheck.Json
