import FixtureCheck.Proofs.Json.Lookup

/-!
# Values with their entries in another order

`Json.Rearranged` relates a value to one with the entries of objects in another order, at every depth, but for those in
values at places that are fixed. It is an equivalence (`symm`, `trans`), and what it relates has values under the same
keys (`field?_eq`).
-/

namespace FixtureCheck

/-- **Is a value another one with the entries of objects in another order?** At places that are fixed values are the
same, with all that stands in them. -/
inductive Json.Rearranged (fixed : Json.Path → Prop) : Json.Path → Json → Json → Prop where
  | same (path : Json.Path) (value : Json) : Rearranged fixed path value value
  | arr {path : Json.Path} {items items' : List Json} (free : ¬ fixed path) (length : items.length = items'.length)
      (each : ∀ (i : Nat) (value value' : Json), items[i]? = some value → items'[i]? = some value' →
        Rearranged fixed (path ++ [.index i]) value value') :
      Rearranged fixed path (.arr items) (.arr items')
  | obj {path : Json.Path} {entries entries' : List (String × Json)} (free : ¬ fixed path)
      (keys : (entries.map Prod.fst).Perm (entries'.map Prod.fst))
      (each : ∀ (key : String) (value value' : Json), Json.lookup entries key = some value →
        Json.lookup entries' key = some value' → Rearranged fixed (path ++ [.key key]) value value') :
      Rearranged fixed path (.obj entries) (.obj entries')

namespace Json.Rearranged

variable {fixed : Json.Path → Prop} {path : Json.Path} {value value' value'' : Json}

theorem eq_of_fixed (h : Rearranged fixed path value value') (hfixed : fixed path) : value = value' := by
  cases h with
  | same => rfl
  | arr free _ _ => exact absurd hfixed free
  | obj free _ _ => exact absurd hfixed free

theorem symm (h : Rearranged fixed path value value') : Rearranged fixed path value' value := by
  induction h with
  | same => exact .same _ _
  | arr free length _ ih => exact .arr free length.symm fun i v v' hv hv' => ih i v' v hv' hv
  | obj free keys _ ih => exact .obj free keys.symm fun key v v' hv hv' => ih key v' v hv' hv

/-- What the first and the last value hold at an index or under a key, the one between them holds too. -/
theorem trans (h : Rearranged fixed path value value') (h' : Rearranged fixed path value' value'') :
    Rearranged fixed path value value'' := by
  induction h generalizing value'' with
  | same => exact h'
  | @arr path items items' free length each ih =>
    cases h' with
    | same => exact .arr free length each
    | arr _ length' each' =>
      refine .arr free (length.trans length') fun i v v'' hv hv'' => ?_
      have hi : i < items'.length := by
        rw [← length]
        exact (List.getElem?_eq_some_iff.1 hv).1
      obtain ⟨v', hv'⟩ : ∃ v', items'[i]? = some v' := ⟨_, List.getElem?_eq_getElem hi⟩
      exact ih i v v' hv hv' (each' i v' v'' hv' hv'')
  | @obj path entries entries' free keys each ih =>
    cases h' with
    | same => exact .obj free keys each
    | obj _ keys' each' =>
      refine .obj free (keys.trans keys') fun key v v'' hv hv'' => ?_
      have hkey : key ∈ entries'.map Prod.fst := keys.mem_iff.1 (lookup_isSome_iff.1 (by rw [hv]; rfl))
      obtain ⟨v', hv'⟩ := Option.isSome_iff_exists.1 (lookup_isSome_iff.2 hkey)
      exact ih key v v' hv hv' (each' key v' v'' hv' hv'')

/-- **An object with the same entries in another order is rearranged**, if none of its keys is there twice. -/
theorem of_perm {entries entries' : List (String × Json)} (free : ¬ fixed path) (h : entries.Perm entries')
    (hn : (entries.map Prod.fst).Nodup) : Rearranged fixed path (.obj entries) (.obj entries') := by
  refine .obj free (h.map _) fun key value value' hv hv' => ?_
  rw [← lookup_eq_of_perm hn h, hv] at hv'
  cases hv'
  exact .same _ _

/-- Objects have values under the same keys, whatever their order. -/
theorem field?_eq (h : Rearranged fixed path value value') (key : String) :
    value.field? key = none ∧ value'.field? key = none ∨
      ∃ inner inner', value.field? key = some inner ∧ value'.field? key = some inner' ∧
        Rearranged fixed (path ++ [.key key]) inner inner' := by
  cases h with
  | same =>
    cases hv : value.field? key with
    | none => exact .inl ⟨rfl, rfl⟩
    | some inner => exact .inr ⟨inner, inner, rfl, rfl, .same _ _⟩
  | arr _ _ _ => exact .inl ⟨rfl, rfl⟩
  | obj _ keys each =>
    refine (lookup_eq_none_or keys.mem_iff).imp id fun ⟨inner, inner', hv, hv'⟩ => ?_
    exact ⟨inner, inner', hv, hv', each key inner inner' hv hv'⟩

end Json.Rearranged

end FixtureCheck
