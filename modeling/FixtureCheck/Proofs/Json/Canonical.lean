import FixtureCheck.Proofs.Json.Rearranged
import FixtureCheck.Proofs.Json.Written

/-!
# Canonical texts

`EqualButForOrder` is equality up to the order of keys, at every depth. Sorting the keys changes nothing else
(`rearranged_sortKeys`) and leaves no order to differ in (`sortKeys_eq_of_rearranged`). The text of the sorted value is
read as that value, so proper values have the same canonical text exactly if they are equal but for the order of keys
(`IsProper.canonical_eq_iff`).
-/

namespace FixtureCheck.Json

variable {v w : Json} {entries entries' : List (String × Json)} {key : String} {fixed : Path → Prop} {path : Path}

/-- **Are values equal but for the order of keys?** The entries of objects may come in another order, at every depth;
integers and binary numbers are different values. -/
def EqualButForOrder (v w : Json) : Prop := Rearranged (fun _ => False) [] v w

/-! ## Entries -/

theorem sortKeysItems_eq_map (items : List Json) : sortKeysItems items = items.map sortKeys := by
  induction items with
  | nil => rfl
  | cons item items ih => rw [sortKeysItems, ih, List.map_cons]

theorem sortKeysEntries_eq_map (entries : List (String × Json)) :
    sortKeysEntries entries = entries.map fun entry => (entry.1, sortKeys entry.2) := by
  induction entries with
  | nil => rfl
  | cons entry entries ih => rw [sortKeysEntries, ih, List.map_cons]

theorem keys_sortKeysEntries (entries : List (String × Json)) :
    (sortKeysEntries entries).map Prod.fst = entries.map Prod.fst := by
  rw [sortKeysEntries_eq_map, List.map_map]
  rfl

theorem lookup_sortKeysEntries (entries : List (String × Json)) (key : String) :
    lookup (sortKeysEntries entries) key = (lookup entries key).map sortKeys := by
  rw [sortKeysEntries_eq_map, lookup, lookup, List.find?_map, Option.map_map, Option.map_map]
  rfl

theorem perm_sortEntries (entries : List (String × Json)) : (sortEntries entries).Perm entries :=
  List.mergeSort_perm entries _

theorem perm_keys_sortEntries (entries : List (String × Json)) :
    ((sortEntries (sortKeysEntries entries)).map Prod.fst).Perm (entries.map Prod.fst) := by
  rw [← keys_sortKeysEntries entries]
  exact (perm_sortEntries _).map _

theorem pairwise_sortEntries (entries : List (String × Json)) :
    (sortEntries entries).Pairwise fun a b => a.1 ≤ b.1 := by
  have hsorted : (sortEntries entries).Pairwise fun a b => decide (a.1 ≤ b.1) = true := by
    refine List.pairwise_mergeSort ?_ ?_ entries
    · intro a b c hab hbc
      exact decide_eq_true (String.le_trans (of_decide_eq_true hab) (of_decide_eq_true hbc))
    · intro a b
      simpa using String.le_total a.1 b.1
  exact hsorted.imp of_decide_eq_true

/-- **Sorted entries do not tell in which order they were**, if each key is there once: entries that may come in both
orders have the same key. -/
theorem sortEntries_eq_of_perm (hn : (entries.map Prod.fst).Nodup) (h : entries.Perm entries') :
    sortEntries entries = sortEntries entries' := by
  have hperm : (sortEntries entries).Perm (sortEntries entries') :=
    (perm_sortEntries entries).trans (h.trans (perm_sortEntries entries').symm)
  refine hperm.eq_of_pairwise ?_ (pairwise_sortEntries entries) (pairwise_sortEntries entries')
  intro a b ha hb hab hba
  have ha' : a ∈ entries := (perm_sortEntries entries).mem_iff.1 ha
  have hb' : b ∈ entries := (perm_sortEntries entries).mem_iff.1 (hperm.mem_iff.2 hb)
  exact List.inj_on_of_nodup_map hn ha' hb' (String.le_antisymm hab hba)

/-- What an object holds under a key is sorted, and is found under the same key. -/
theorem lookup_sortEntries (hn : (entries.map Prod.fst).Nodup) (key : String) :
    lookup (sortEntries (sortKeysEntries entries)) key = (lookup entries key).map sortKeys := by
  rw [← lookup_sortKeysEntries]
  exact lookup_eq_of_perm ((perm_keys_sortEntries entries).nodup_iff.2 hn) (perm_sortEntries _)

/-! ## Values -/

/-- A proper value is proper with its keys in order. -/
theorem IsProper.sortKeys (hv : IsProper v) : IsProper v.sortKeys := by
  induction hv with
  | null => exact .null
  | bool b => exact .bool b
  | int n => exact .int n
  | float hx => exact .float hx
  | str s => exact .str s
  | arr _ ih =>
    rw [Json.sortKeys, sortKeysItems_eq_map]
    refine .arr fun item hitem => ?_
    obtain ⟨item', hitem', rfl⟩ := List.mem_map.1 hitem
    exact ih item' hitem'
  | obj hkeys _ ih =>
    rw [Json.sortKeys]
    refine .obj ((perm_keys_sortEntries _).nodup_iff.2 hkeys) fun entry hentry => ?_
    rw [(perm_sortEntries _).mem_iff, sortKeysEntries_eq_map] at hentry
    obtain ⟨entry', hentry', rfl⟩ := List.mem_map.1 hentry
    exact ih entry' hentry'

/-- **Sorting the keys changes their order only.** -/
theorem rearranged_sortKeys (hfree : ∀ path, ¬ fixed path) (hv : IsProper v) (path : Path) :
    Rearranged fixed path v v.sortKeys := by
  induction hv generalizing path with
  | null => exact .same _ _
  | bool b => exact .same _ _
  | int n => exact .same _ _
  | float hx => exact .same _ _
  | str s => exact .same _ _
  | arr _ ih =>
    rw [sortKeys, sortKeysItems_eq_map]
    refine .arr (hfree path) (List.length_map _).symm fun i item item' hitem hitem' => ?_
    rw [List.getElem?_map, hitem] at hitem'
    cases hitem'
    exact ih item (List.mem_of_getElem? hitem) _
  | obj hkeys _ ih =>
    rw [sortKeys]
    refine .obj (hfree path) (perm_keys_sortEntries _).symm fun key inner inner' hinner hinner' => ?_
    rw [lookup_sortEntries hkeys, hinner] at hinner'
    cases hinner'
    exact ih (key, inner) (mem_of_lookup hinner) _

/-- **Values that differ in the order of keys only are the same once their keys are in order.** -/
theorem sortKeys_eq_of_rearranged (h : Rearranged fixed path v w) (hv : IsProper v) (hw : IsProper w) :
    v.sortKeys = w.sortKeys := by
  induction h with
  | same => rfl
  | @arr path items items' free length each ih =>
    cases hv with
    | arr hitems =>
    cases hw with
    | arr hitems' =>
    rw [sortKeys, sortKeys, sortKeysItems_eq_map, sortKeysItems_eq_map]
    congr 1
    refine List.ext_getElem (by simpa using length) fun i hi hi' => ?_
    rw [List.length_map] at hi hi'
    rw [List.getElem_map, List.getElem_map]
    exact ih i _ _ (List.getElem?_eq_getElem hi) (List.getElem?_eq_getElem hi') (hitems _ (List.getElem_mem hi))
      (hitems' _ (List.getElem_mem hi'))
  | @obj path entries entries' free keys each ih =>
    cases id hv with
    | obj hn _ =>
    cases id hw with
    | obj hn' _ =>
    rw [sortKeys, sortKeys]
    congr 1
    rw [← keys_sortKeysEntries] at hn hn'
    refine sortEntries_eq_of_perm hn (perm_of_lookup_eq hn hn' fun key => ?_)
    rw [lookup_sortKeysEntries, lookup_sortKeysEntries]
    rcases lookup_eq_none_or (keys.mem_iff (a := key)) with ⟨hnone, hnone'⟩ | ⟨inner, inner', hinner, hinner'⟩
    · rw [hnone, hnone']
    · rw [hinner, hinner', Option.map_some, Option.map_some,
        ih key inner inner' hinner hinner' (hv.of_lookup hinner) (hw.of_lookup hinner')]

/-! ## Texts -/

theorem isBlank_spacedLayout : spacedLayout.IsBlank where
  lineBreak := by simp [spacedLayout]
  comma := ⟨[' '], by simp [isBlank], rfl⟩
  colon := ⟨[' '], by simp [isBlank], rfl⟩

/-- A canonical text is read as the value with its keys in order. -/
theorem IsProper.parse_canonical (hv : IsProper v) : parse v.canonical = .ok v.sortKeys :=
  hv.sortKeys.parse_render isBlank_spacedLayout

/-- **Values have the same canonical text exactly if they are equal but for the order of keys.** -/
theorem IsProper.canonical_eq_iff (hv : IsProper v) (hw : IsProper w) :
    v.canonical = w.canonical ↔ v.EqualButForOrder w := by
  constructor
  · intro h
    have hsort : v.sortKeys = w.sortKeys := by
      have hparse := hv.parse_canonical
      rw [h, hw.parse_canonical] at hparse
      exact (Except.ok.inj hparse).symm
    have hfree : ∀ path : Path, ¬ (fun _ => False) path := fun _ => id
    have hwsort := (rearranged_sortKeys hfree hw []).symm
    rw [← hsort] at hwsort
    exact (rearranged_sortKeys hfree hv []).trans hwsort
  · intro h
    rw [canonical, canonical, sortKeys_eq_of_rearranged h hv hw]

end FixtureCheck.Json
