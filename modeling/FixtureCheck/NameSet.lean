/-!
# Finite sets of names

A `NameSet` is a strictly increasing list of names, so two sets with the same members are equal (`NameSet.ext`). Each
operation is described through membership: `mem_insert`, `mem_ofList`, `mem_union`, `mem_filter`, `mem_inter`.
-/

namespace FixtureCheck

/-- A finite set of names, in increasing order. -/
structure NameSet where
  names : List String
  increasing : names.Pairwise (· < ·)
  deriving DecidableEq, Repr

namespace NameSet

/-- The set without members. -/
def empty : NameSet := ⟨[], .nil⟩

instance : Inhabited NameSet := ⟨empty⟩

instance : Membership String NameSet := ⟨fun s a => a ∈ s.names⟩

instance (a : String) (s : NameSet) : Decidable (a ∈ s) := inferInstanceAs (Decidable (a ∈ s.names))

/-! ## Extensionality -/

private theorem eq_of_mem_iff : ∀ {as bs : List String}, as.Pairwise (· < ·) → bs.Pairwise (· < ·) →
    (∀ x, x ∈ as ↔ x ∈ bs) → as = bs
  | [], [], _, _, _ => rfl
  | [], b :: _, _, _, h => absurd ((h b).2 List.mem_cons_self) List.not_mem_nil
  | a :: _, [], _, _, h => absurd ((h a).1 List.mem_cons_self) List.not_mem_nil
  | a :: as, b :: bs, ha, hb, h => by
    obtain ⟨ha, has⟩ := List.pairwise_cons.1 ha
    obtain ⟨hb, hbs⟩ := List.pairwise_cons.1 hb
    have hab : a = b := by
      rcases List.mem_cons.1 ((h a).1 List.mem_cons_self) with e | e
      · exact e
      · rcases List.mem_cons.1 ((h b).2 List.mem_cons_self) with e' | e'
        · exact e'.symm
        · exact absurd (String.lt_trans (hb a e) (ha b e')) (String.lt_irrefl _)
    subst hab
    congr 1
    refine eq_of_mem_iff has hbs fun x => ⟨fun hx => ?_, fun hx => ?_⟩
    · rcases List.mem_cons.1 ((h x).1 (List.mem_cons_of_mem _ hx)) with e | e
      · exact absurd (e ▸ ha x hx) (String.lt_irrefl _)
      · exact e
    · rcases List.mem_cons.1 ((h x).2 (List.mem_cons_of_mem _ hx)) with e | e
      · exact absurd (e ▸ hb x hx) (String.lt_irrefl _)
      · exact e

/-- Sets with the same members are equal. -/
theorem ext {s t : NameSet} (h : ∀ x, x ∈ s ↔ x ∈ t) : s = t := by
  obtain ⟨s, hs⟩ := s
  obtain ⟨t, ht⟩ := t
  have : s = t := eq_of_mem_iff hs ht h
  subst this
  rfl

/-! ## Operations -/

/-- Puts a name in its place. -/
def insertName (a : String) : List String → List String
  | [] => [a]
  | b :: bs => if a < b then a :: b :: bs else if a = b then b :: bs else b :: insertName a bs

theorem mem_insertName {a x : String} : ∀ {bs : List String}, x ∈ insertName a bs ↔ x = a ∨ x ∈ bs
  | [] => by simp [insertName]
  | b :: bs => by
    simp only [insertName]
    split
    · simp
    · split
      · rename_i h; subst h; simp
      · simp only [List.mem_cons, @mem_insertName a x bs]
        exact ⟨fun h => by rcases h with h | h | h <;> simp [h], fun h => by rcases h with h | h | h <;> simp [h]⟩

theorem pairwise_insertName {a : String} : ∀ {bs : List String}, bs.Pairwise (· < ·) →
    (insertName a bs).Pairwise (· < ·)
  | [], _ => List.pairwise_singleton _ _
  | b :: bs, h => by
    obtain ⟨hb, hbs⟩ := List.pairwise_cons.1 h
    simp only [insertName]
    split
    · rename_i hab
      refine List.pairwise_cons.2 ⟨fun x hx => ?_, h⟩
      rcases List.mem_cons.1 hx with rfl | hx
      · exact hab
      · exact String.lt_trans hab (hb x hx)
    · split
      · exact h
      · rename_i hlt hne
        refine List.pairwise_cons.2 ⟨fun x hx => ?_, pairwise_insertName hbs⟩
        rcases mem_insertName.1 hx with rfl | hx
        · have hle : b ≤ x := String.not_lt.1 hlt
          by_cases h' : b < x
          · exact h'
          · exact absurd (String.le_antisymm (String.not_lt.1 h') hle) hne
        · exact hb x hx

/-- The set with one more member. -/
def insert (s : NameSet) (a : String) : NameSet := ⟨insertName a s.names, pairwise_insertName s.increasing⟩

@[simp] theorem mem_insert {s : NameSet} {a x : String} : x ∈ s.insert a ↔ x = a ∨ x ∈ s := mem_insertName

@[simp] theorem not_mem_empty {x : String} : ¬ x ∈ empty := List.not_mem_nil

/-- The set of the names in a list. -/
def ofList (names : List String) : NameSet := names.foldl insert empty

private theorem mem_foldl_insert {x : String} : ∀ {names : List String} {s : NameSet},
    x ∈ names.foldl insert s ↔ x ∈ s ∨ x ∈ names
  | [], _ => by simp
  | a :: names, s => by
    rw [List.foldl_cons, mem_foldl_insert, mem_insert, List.mem_cons]
    exact ⟨fun h => by rcases h with (h | h) | h <;> simp [h], fun h => by rcases h with h | h | h <;> simp [h]⟩

@[simp] theorem mem_ofList {names : List String} {x : String} : x ∈ ofList names ↔ x ∈ names := by
  simp [ofList, mem_foldl_insert]

/-- The set with one member. -/
def singleton (a : String) : NameSet := ⟨[a], List.pairwise_singleton _ _⟩

@[simp] theorem mem_singleton {a x : String} : x ∈ singleton a ↔ x = a := List.mem_singleton

/-- The members of either set. -/
def union (s t : NameSet) : NameSet := t.names.foldl insert s

@[simp] theorem mem_union {s t : NameSet} {x : String} : x ∈ s.union t ↔ x ∈ s ∨ x ∈ t := mem_foldl_insert

/-- The members that pass a test. -/
def filter (s : NameSet) (p : String → Bool) : NameSet := ⟨s.names.filter p, s.increasing.filter p⟩

@[simp] theorem mem_filter {s : NameSet} {p : String → Bool} {x : String} : x ∈ s.filter p ↔ x ∈ s ∧ p x = true :=
  List.mem_filter

/-- The common members. -/
def inter (s t : NameSet) : NameSet := s.filter fun a => decide (a ∈ t)

@[simp] theorem mem_inter {s t : NameSet} {x : String} : x ∈ s.inter t ↔ x ∈ s ∧ x ∈ t := by
  simp [inter]

end NameSet

end FixtureCheck
