import FixtureCheck.Json.Parser
import FixtureCheck.Proofs.Json.Lookup
import FixtureCheck.Proofs.Number.Shortest

/-!
# Values that are read

A text is only read as a value that is proper (`isProper_of_parse`): its objects have each key once, and its numbers are
in their one form.
-/

namespace FixtureCheck.Json

variable {cs : List Char} {key : String} {v : Json} {items : List Json} {entries : List (String × Json)}

/-- **Is a value one that a text can be read as?** Every object has each key once, and numbers are in their one form. -/
inductive IsProper : Json → Prop where
  | null : IsProper .null
  | bool (b : Bool) : IsProper (.bool b)
  | int (n : Int) : IsProper (.int n)
  | float {x : Binary64} (h : x.IsCanonical) : IsProper (.float x)
  | str (s : String) : IsProper (.str s)
  | arr {items : List Json} (h : ∀ item ∈ items, IsProper item) : IsProper (.arr items)
  | obj {entries : List (String × Json)} (hkeys : (entries.map (·.1)).Nodup)
    (h : ∀ entry ∈ entries, IsProper entry.2) : IsProper (.obj entries)

/-! ## Entries -/

/-- The values of a proper object are proper. -/
theorem IsProper.of_lookup (h : IsProper (.obj entries)) (hv : lookup entries key = some v) : IsProper v := by
  cases h with
  | obj _ hentries => exact hentries _ (mem_of_lookup hv)

theorem insertEntry_of_not_mem (h : key ∉ entries.map (·.1)) : insertEntry key v entries = entries ++ [(key, v)] := by
  induction entries with
  | nil => rfl
  | cons entry entries ih =>
    rw [List.map_cons, List.mem_cons, not_or] at h
    rw [insertEntry, if_neg (by simpa using Ne.symm h.1), ih h.2, List.cons_append]

theorem map_insertEntry_of_mem (h : key ∈ entries.map (·.1)) :
    (insertEntry key v entries).map (·.1) = entries.map (·.1) := by
  induction entries with
  | nil => cases h
  | cons entry entries ih =>
    rw [insertEntry]
    by_cases heq : entry.1 = key
    · rw [if_pos (by simpa using heq)]
      rfl
    · rw [if_neg (by simpa using heq), List.map_cons, List.map_cons, ih]
      rcases List.mem_cons.1 h with hfirst | hrest
      · exact absurd hfirst.symm heq
      · exact hrest

theorem nodup_insertEntry (hn : (entries.map (·.1)).Nodup) : ((insertEntry key v entries).map (·.1)).Nodup := by
  by_cases h : key ∈ entries.map (·.1)
  · rw [map_insertEntry_of_mem h]
    exact hn
  · rw [insertEntry_of_not_mem h, List.map_append]
    refine List.nodup_append.2 ⟨hn, by simp, ?_⟩
    intro a ha b hb
    rw [List.map_singleton, List.mem_singleton] at hb
    rw [hb]
    rintro rfl
    exact h ha

theorem mem_insertEntry {entry : String × Json} (h : entry ∈ insertEntry key v entries) :
    entry.2 = v ∨ entry ∈ entries := by
  induction entries with
  | nil =>
    left
    rw [List.mem_singleton.1 h]
  | cons first entries ih =>
    rw [insertEntry] at h
    split at h
    · rcases List.mem_cons.1 h with rfl | h
      · exact .inl rfl
      · exact .inr (List.mem_cons_of_mem _ h)
    · rcases List.mem_cons.1 h with rfl | h
      · exact .inr List.mem_cons_self
      · exact (ih h).imp_right (List.mem_cons_of_mem _)

/-- The object of given entries has their values, under keys of its own. -/
theorem IsProper.ofEntries (h : ∀ entry ∈ entries, IsProper entry.2) : IsProper (ofEntries entries) := by
  have hfold : ∀ entries done : List (String × Json), (∀ entry ∈ entries, IsProper entry.2) →
      (done.map (·.1)).Nodup → (∀ entry ∈ done, IsProper entry.2) →
      IsProper (.obj (entries.foldl (fun done entry => insertEntry entry.1 entry.2 done) done)) := by
    intro entries
    induction entries with
    | nil =>
      intro done _ hn hdone
      exact .obj hn hdone
    | cons entry entries ih =>
      intro done hentries hn hdone
      refine ih _ (fun e he => hentries e (List.mem_cons_of_mem _ he)) (nodup_insertEntry hn) ?_
      intro e he
      rcases mem_insertEntry he with heq | he
      · rw [heq]
        exact hentries entry List.mem_cons_self
      · exact hdone e he
  exact hfold entries [] h List.nodup_nil (by simp)

/-- Entries with keys of their own are those of their object. -/
theorem ofEntries_of_nodup (hn : (entries.map (·.1)).Nodup) : ofEntries entries = .obj entries := by
  have hfold : ∀ entries done : List (String × Json), ((done ++ entries).map (·.1)).Nodup →
      entries.foldl (fun done entry => insertEntry entry.1 entry.2 done) done = done ++ entries := by
    intro entries
    induction entries with
    | nil =>
      intro done _
      simp
    | cons entry entries ih =>
      intro done hn
      have hkey : entry.1 ∉ done.map (·.1) := by
        intro hmem
        rw [List.map_append, List.nodup_append] at hn
        exact hn.2.2 _ hmem _ (by simp) rfl
      rw [List.foldl_cons, insertEntry_of_not_mem hkey, ih _ (by simpa using hn)]
      simp
  exact congrArg obj (hfold entries [] hn)

/-! ## Reading -/

theorem isProper_of_number {rest : List Char} (h : number cs = some (v, rest)) : IsProper v := by
  have hunsigned : ∀ {negative : Bool} {cs : List Char}, unsignedNumber negative cs = some (v, rest) → IsProper v := by
    intro negative cs h
    unfold unsignedNumber at h
    simp only [Option.bind_eq_bind, Option.bind_eq_some_iff] at h
    obtain ⟨⟨whole, rest'⟩, -, h⟩ := h
    dsimp only at h
    split at h
    · cases h
      exact .int _
    · cases h
      exact .float (Binary64.isCanonical_ofDecimal _ _)
  unfold number at h
  split at h
  · cases h
    exact .float trivial
  · cases h
    exact .float trivial
  · cases h
    exact .float trivial
  · exact hunsigned h
  · exact hunsigned h

/-- What a value that is read consists of. -/
theorem cases_of_value {rest : Rest cs} (h : value cs = .ok (v, rest)) : IsProper v ∨
    (∃ (inner : List Char) (items : List Json) (rest : Rest inner), inner.length < cs.length ∧
      elements inner = .ok (items, rest) ∧ v = .arr items) ∨
    (∃ (inner : List Char) (entries : List (String × Json)) (rest : Rest inner), inner.length < cs.length ∧
      members inner = .ok (entries, rest) ∧ v = ofEntries entries) := by
  have hlt : ∀ (c : Char) (cs : List Char), (skipBlanks cs).length < (c :: cs).length := by
    intro c cs
    have := skipBlanks_length_le cs
    rw [List.length_cons]
    omega
  unfold value at h
  split at h
  · split at h
    · cases h
    · cases h
      exact .inl (.str _)
  · split at h
    · cases h
      exact .inl (.obj List.nodup_nil (by simp))
    · split at h
      · cases h
      · cases h
        exact .inr (.inr ⟨_, _, _, hlt _ _, ‹_›, rfl⟩)
  · split at h
    · cases h
      exact .inl (.arr (by simp))
    · split at h
      · cases h
      · cases h
        exact .inr (.inl ⟨_, _, _, hlt _ _, ‹_›, rfl⟩)
  · cases h
    exact .inl .null
  · cases h
    exact .inl (.bool true)
  · cases h
    exact .inl (.bool false)
  · split at h
    · split at h
      · cases h
        exact .inl (isProper_of_number ‹_›)
      · cases h
    · cases h

/-- What elements that are read consist of. -/
theorem cases_of_elements {rest : Rest cs} (h : elements cs = .ok (items, rest)) :
    ∃ (v : Json) (rest : Rest cs) (others : List Json), value cs = .ok (v, rest) ∧ items = v :: others ∧
      (others = [] ∨ ∃ (inner : List Char) (rest : Rest inner), inner.length < cs.length ∧
        elements inner = .ok (others, rest)) := by
  unfold elements at h
  split at h
  · cases h
  next v rest hlt hv =>
    have hle := skipBlanks_length_le rest
    split at h
    · cases h
      exact ⟨v, _, [], hv, rfl, .inl rfl⟩
    next after hskip =>
      have hle' := skipBlanks_length_le after
      rw [hskip, List.length_cons] at hle
      split at h
      · cases h
      next hothers =>
        cases h
        exact ⟨v, _, _, hv, rfl, .inr ⟨skipBlanks after, _, by omega, hothers⟩⟩
    · cases h

/-- What entries that are read consist of. -/
theorem cases_of_members {rest : Rest cs} (h : members cs = .ok (entries, rest)) :
    ∃ (inner : List Char) (key : String) (v : Json) (rest : Rest inner) (others : List (String × Json)),
      inner.length < cs.length ∧ value inner = .ok (v, rest) ∧ entries = (key, v) :: others ∧
      (others = [] ∨ ∃ (inner : List Char) (rest : Rest inner), inner.length < cs.length ∧
        members inner = .ok (others, rest)) := by
  unfold members at h
  split at h
  next afterQuote =>
    split at h
    · cases h
    next key afterKey hlt _ =>
      have hle := skipBlanks_length_le afterKey
      split at h
      next afterColon hskip =>
        have hle' := skipBlanks_length_le afterColon
        rw [hskip, List.length_cons] at hle
        split at h
        · cases h
        next v rest hlt' hv =>
          have hle'' := skipBlanks_length_le rest
          split at h
          · cases h
            exact ⟨_, _, v, _, [], by rw [List.length_cons]; omega, hv, rfl, .inl rfl⟩
          next after hskip' =>
            have hle₃ := skipBlanks_length_le after
            rw [hskip', List.length_cons] at hle''
            split at h
            · cases h
            next hothers =>
              cases h
              exact ⟨_, _, v, _, _, by rw [List.length_cons]; omega, hv, rfl,
                .inr ⟨skipBlanks after, _, by rw [List.length_cons]; omega, hothers⟩⟩
          · cases h
      · cases h
  · cases h

/-- Induction on the number of characters: the parts of a value take fewer ones. -/
theorem isProper_of_readers : ∀ (n : Nat) (cs : List Char), cs.length ≤ n →
    (∀ v (rest : Rest cs), value cs = .ok (v, rest) → IsProper v) ∧
    (∀ items (rest : Rest cs), elements cs = .ok (items, rest) → ∀ item ∈ items, IsProper item) ∧
    (∀ entries (rest : Rest cs), members cs = .ok (entries, rest) → ∀ entry ∈ entries, IsProper entry.2) := by
  intro n
  induction n using Nat.strong_induction_on with
  | _ n ih =>
    intro cs hn
    have hvalue : ∀ v (rest : Rest cs), value cs = .ok (v, rest) → IsProper v := by
      intro v rest h
      rcases cases_of_value h with
        hv | ⟨inner, items, rest, hlt, hitems, rfl⟩ | ⟨inner, entries, rest, hlt, hentries, rfl⟩
      · exact hv
      · exact .arr ((ih _ (by omega) inner (le_refl _)).2.1 _ _ hitems)
      · exact .ofEntries ((ih _ (by omega) inner (le_refl _)).2.2 _ _ hentries)
    refine ⟨hvalue, ?_, ?_⟩
    · intro items rest h item hi
      obtain ⟨v, rest, others, hv, rfl, hothers⟩ := cases_of_elements h
      rcases List.mem_cons.1 hi with rfl | hi
      · exact hvalue _ _ hv
      · rcases hothers with rfl | ⟨inner, rest, hlt, hothers⟩
        · cases hi
        · exact (ih _ (by omega) inner (le_refl _)).2.1 _ _ hothers _ hi
    · intro entries rest h entry he
      obtain ⟨inner, key, v, rest, others, hlt, hv, rfl, hothers⟩ := cases_of_members h
      rcases List.mem_cons.1 he with rfl | he
      · exact (ih _ (by omega) inner (le_refl _)).1 _ _ hv
      · rcases hothers with rfl | ⟨inner, rest, hlt, hothers⟩
        · cases he
        · exact (ih _ (by omega) inner (le_refl _)).2.2 _ _ hothers _ he

/-- **What a text is read as is proper.** -/
theorem isProper_of_parse {text : String} (h : parse text = .ok v) : IsProper v := by
  unfold parse at h
  dsimp only at h
  split at h
  · cases h
  · split at h
    · cases h
    next v' rest _ hv =>
      split at h
      · cases h
        exact (isProper_of_readers _ _ (le_refl _)).1 _ _ hv
      · cases h

end FixtureCheck.Json
