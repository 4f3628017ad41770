/-!
# Results that may be errors

Where a result that is no error comes from.
-/

namespace FixtureCheck

variable {ε ε' α β : Type}

theorem error_bind (e : ε) (f : α → Except ε β) : (Except.error e >>= f) = .error e := rfl

theorem ok_bind (a : α) (f : α → Except ε β) : (Except.ok a >>= f) = f a := rfl

theorem bind_eq_ok_iff {x : Except ε α} {f : α → Except ε β} {b : β} :
    (x >>= f) = .ok b ↔ ∃ a, x = .ok a ∧ f a = .ok b := by
  cases x <;> simp [bind, Except.bind]

theorem bind_eq_error_iff {x : Except ε α} {f : α → Except ε β} {e : ε} :
    (x >>= f) = .error e ↔ x = .error e ∨ ∃ a, x = .ok a ∧ f a = .error e := by
  cases x <;> simp [bind, Except.bind]

/-- A result is there if that can be computed. -/
theorem exists_of_isSome_toOption {x : Except ε α} (h : x.toOption.isSome = true) : ∃ a, x = .ok a := by
  cases x with
  | error e => cases h
  | ok a => exact ⟨a, rfl⟩

/-- A result is the one that can be computed. -/
theorem eq_ok_of_toOption {x : Except ε α} {a : α} (h : x.toOption = some a) : x = .ok a := by
  cases x with
  | error e => cases h
  | ok a' =>
    cases h
    rfl

/-- What comes behind a check that fails under a condition. -/
theorem of_guard {c : Prop} [Decidable c] {e : ε} {next : PUnit → Except ε β} {b : β}
    (h : (if c then (Except.error e : Except ε PUnit) >>= next else next ⟨⟩) = .ok b) : ¬c ∧ next ⟨⟩ = .ok b := by
  split at h
  · cases h
  · exact ⟨‹_›, h⟩

theorem map_eq_ok_iff {f : α → β} {x : Except ε α} {b : β} : x.map f = .ok b ↔ ∃ a, x = .ok a ∧ f a = b := by
  cases x <;> simp [Except.map]

theorem mapError_eq_ok_iff {f : ε → ε'} {x : Except ε α} {a : α} : x.mapError f = .ok a ↔ x = .ok a := by
  constructor
  · intro h
    cases x with
    | error e => cases h
    | ok a' =>
      cases h
      rfl
  · rintro rfl
    rfl

theorem mem_of_mapM {f : α → Except ε β} {b : β} : ∀ {as : List α} {bs : List β},
    as.mapM f = .ok bs → b ∈ bs → ∃ a ∈ as, f a = .ok b
  | [], _, h, hb => by
    cases h
    cases hb
  | a :: as, bs, h, hb => by
    rw [List.mapM_cons, bind_eq_ok_iff] at h
    obtain ⟨first, ha, h⟩ := h
    obtain ⟨rest, hrest, hbs⟩ := bind_eq_ok_iff.1 h
    cases hbs
    rcases List.mem_cons.1 hb with rfl | hb
    · exact ⟨a, List.mem_cons_self, ha⟩
    · obtain ⟨a', hm, hf⟩ := mem_of_mapM hrest hb
      exact ⟨a', List.mem_cons_of_mem a hm, hf⟩

theorem mem_mapM {f : α → Except ε β} {a : α} : ∀ {as : List α} {bs : List β},
    as.mapM f = .ok bs → a ∈ as → ∃ b ∈ bs, f a = .ok b
  | [], _, _, ha => by cases ha
  | a' :: as, bs, h, ha => by
    rw [List.mapM_cons, bind_eq_ok_iff] at h
    obtain ⟨first, hfirst, h⟩ := h
    obtain ⟨rest, hrest, hbs⟩ := bind_eq_ok_iff.1 h
    cases hbs
    rcases List.mem_cons.1 ha with rfl | ha
    · exact ⟨first, List.mem_cons_self, hfirst⟩
    · obtain ⟨b, hm, hf⟩ := mem_mapM hrest ha
      exact ⟨b, List.mem_cons_of_mem first hm, hf⟩

/-- A list whose parts all have results has results. -/
theorem exists_mapM {f : α → Except ε β} : ∀ {as : List α}, (∀ a ∈ as, ∃ b, f a = .ok b) → ∃ bs, as.mapM f = .ok bs
  | [], _ => ⟨[], rfl⟩
  | a :: as, h => by
    obtain ⟨b, ha⟩ := h a List.mem_cons_self
    obtain ⟨bs, hbs⟩ := exists_mapM fun a' hm => h a' (List.mem_cons_of_mem _ hm)
    exact ⟨b :: bs, by rw [List.mapM_cons, ha, ok_bind, hbs]; rfl⟩

/-- What results keep of what they come from. -/
theorem map_of_mapM {γ : Type} {f : α → Except ε β} {key : α → γ} {key' : β → γ}
    (hk : ∀ a b, f a = .ok b → key' b = key a) : ∀ {as : List α} {bs : List β},
    as.mapM f = .ok bs → bs.map key' = as.map key
  | [], _, h => by
    cases h
    rfl
  | a :: as, bs, h => by
    rw [List.mapM_cons, bind_eq_ok_iff] at h
    obtain ⟨first, ha, h⟩ := h
    obtain ⟨rest, hrest, hbs⟩ := bind_eq_ok_iff.1 h
    cases hbs
    rw [List.map_cons, List.map_cons, hk a first ha, map_of_mapM hk hrest]

theorem mem_of_filterMapM {f : α → Except ε (Option β)} {b : β} : ∀ {as : List α} {bs : List β},
    as.filterMapM f = .ok bs → b ∈ bs → ∃ a ∈ as, f a = .ok (some b)
  | [], _, h, hb => by
    cases h
    cases hb
  | a :: as, bs, h, hb => by
    rw [List.filterMapM_cons, bind_eq_ok_iff] at h
    obtain ⟨found, ha, h⟩ := h
    have hrest : ∀ {bs' : List β}, as.filterMapM f = .ok bs' → b ∈ bs' → ∃ a' ∈ a :: as, f a' = .ok (some b) := by
      intro bs' h' hb'
      obtain ⟨a', hm, hf⟩ := mem_of_filterMapM h' hb'
      exact ⟨a', List.mem_cons_of_mem _ hm, hf⟩
    cases found with
    | none => exact hrest h hb
    | some b' =>
      obtain ⟨bs', h', hbs⟩ := bind_eq_ok_iff.1 h
      cases hbs
      rcases List.mem_cons.1 hb with rfl | hb
      · exact ⟨a, List.mem_cons_self, ha⟩
      · exact hrest h' hb

theorem mem_filterMapM {f : α → Except ε (Option β)} {a : α} : ∀ {as : List α} {bs : List β},
    as.filterMapM f = .ok bs → a ∈ as → ∃ found, f a = .ok found ∧ ∀ b ∈ found, b ∈ bs
  | [], _, _, ha => by cases ha
  | a' :: as, bs, h, ha => by
    rw [List.filterMapM_cons, bind_eq_ok_iff] at h
    obtain ⟨found, hfound, h⟩ := h
    cases found with
    | none =>
      rcases List.mem_cons.1 ha with rfl | ha
      · exact ⟨none, hfound, by simp⟩
      · exact mem_filterMapM h ha
    | some b' =>
      obtain ⟨bs', h', hbs⟩ := bind_eq_ok_iff.1 h
      cases hbs
      rcases List.mem_cons.1 ha with rfl | ha
      · exact ⟨some b', hfound, by simp⟩
      · obtain ⟨found, hf, hm⟩ := mem_filterMapM h' ha
        exact ⟨found, hf, fun b hb => List.mem_cons_of_mem b' (hm b hb)⟩

/-- Results that tell what they come from come in the same order. -/
theorem sublist_of_filterMapM {f : α → Except ε (Option β)} {origin : β → α}
    (ho : ∀ a b, f a = .ok (some b) → origin b = a) : ∀ {as : List α} {bs : List β},
    as.filterMapM f = .ok bs → (bs.map origin).Sublist as
  | [], _, h => by
    cases h
    exact .slnil
  | a :: as, bs, h => by
    rw [List.filterMapM_cons, bind_eq_ok_iff] at h
    obtain ⟨found, ha, h⟩ := h
    cases found with
    | none => exact (sublist_of_filterMapM ho h).cons a
    | some b =>
      obtain ⟨bs', h', hbs⟩ := bind_eq_ok_iff.1 h
      cases hbs
      rw [List.map_cons, ho a b ha]
      exact (sublist_of_filterMapM ho h').cons_cons a

/-- A list that has no result has a part that has none. -/
theorem exists_of_filterMapM_error {f : α → Except ε (Option β)} {e : ε} : ∀ {as : List α},
    as.filterMapM f = .error e → ∃ a ∈ as, f a = .error e
  | [], h => by cases h
  | a :: as, h => by
    have hrest : as.filterMapM f = .error e → ∃ a' ∈ a :: as, f a' = .error e := by
      intro h'
      obtain ⟨a', hm, hf⟩ := exists_of_filterMapM_error h'
      exact ⟨a', List.mem_cons_of_mem _ hm, hf⟩
    rw [List.filterMapM_cons] at h
    rcases bind_eq_error_iff.1 h with h | ⟨found, -, h⟩
    · exact ⟨a, List.mem_cons_self, h⟩
    · cases found with
      | none => exact hrest h
      | some b =>
        rcases bind_eq_error_iff.1 h with h | ⟨bs, -, h⟩
        · exact hrest h
        · cases h

end FixtureCheck
