import FixtureCheck.Host
import FixtureCheck.Proofs.Json.Number
import FixtureCheck.Proofs.Json.Proper
import FixtureCheck.Proofs.Json.Text

/-!
# Line ends of JSON texts

A carriage return inside a string is written as an escape, so the text of a value has none (`not_mem_renderAt`), unless
its layout adds one. Reading such a text from a file leaves it as it is (`unifyLineEnds_of_not_mem`).
-/

namespace FixtureCheck

theorem unifyLineEnds_of_not_mem {cs : List Char} (h : '\r' ∉ cs) : unifyLineEnds cs = cs := by
  induction cs with
  | nil => rfl
  | cons c cs ih =>
    rw [List.mem_cons, not_or] at h
    rw [unifyLineEnds, ih h.2]
    · exact fun _ hc => absurd hc.symm h.1
    · exact fun hc => absurd hc.symm h.1

end FixtureCheck

namespace FixtureCheck.Json

variable {c : Char} {cs : List Char} {layout : Layout} {v : Json} {items : List Json} {entries : List (String × Json)}

theorem AllDigits.not_mem_return (h : AllDigits cs) : '\r' ∉ cs := by
  intro hc
  exact absurd (h _ hc) (by decide)

theorem not_mem_escapeUnit {n : Nat} (hn : n < 0x10000) : '\r' ∉ escapeUnit n := by
  obtain ⟨a, b, c, d, hshape, hvalue⟩ := escapeUnit_eq hn
  rw [hshape]
  intro hc
  simp only [List.mem_cons, List.not_mem_nil, or_false] at hc
  have hnone : hexValue? '\r' = none := by decide
  rcases hc with hc | hc | rfl | rfl | rfl | rfl
  · exact absurd hc (by decide)
  · exact absurd hc (by decide)
  all_goals simp [hex4?, hnone] at hvalue

theorem not_mem_escapeChar (c : Char) : '\r' ∉ escapeChar c := by
  have hvalid : c.toNat < 0xD800 ∨ 0xDFFF < c.toNat ∧ c.toNat < 0x110000 := c.valid
  rcases escapeChar_cases c with ⟨letter, -, hletter, h⟩ | ⟨-, -, hplain, h⟩ | ⟨hn, h⟩ | ⟨hn, h⟩
  · rw [h]
    intro hc
    rcases List.mem_cons.1 hc with hc | hc
    · exact absurd hc (by decide)
    · rw [← List.mem_singleton.1 hc] at hletter
      cases hletter
  · rw [h]
    intro hc
    rw [← List.mem_singleton.1 hc] at hplain
    exact absurd hplain (by decide)
  · rw [h]
    exact not_mem_escapeUnit hn
  · rw [h]
    intro hc
    rcases List.mem_append.1 hc with hc | hc
    · exact not_mem_escapeUnit (by omega) hc
    · exact not_mem_escapeUnit (by omega) hc

theorem not_mem_renderString (s : String) : '\r' ∉ renderString s := by
  intro hc
  simp only [renderString, List.cons_append, List.mem_cons, List.mem_append, List.mem_flatMap, List.not_mem_nil,
    or_false] at hc
  rcases hc with hc | ⟨c, -, hc⟩ | hc
  · exact absurd hc (by decide)
  · exact not_mem_escapeChar c hc
  · exact absurd hc (by decide)

theorem not_mem_positional (h : AllDigits cs) (point : Int) : '\r' ∉ Binary64.positional cs point := by
  have hzeros : ∀ n, '\r' ∉ List.replicate n '0' := fun n => (allDigits_zeros n).not_mem_return
  unfold Binary64.positional
  split
  · simp [hzeros, h.not_mem_return]
  · have htake : '\r' ∉ cs.take point.toNat := fun hc => h.not_mem_return (List.mem_of_mem_take hc)
    have hdrop : '\r' ∉ cs.drop point.toNat := fun hc => h.not_mem_return (List.mem_of_mem_drop hc)
    dsimp only
    split
    · simp [htake, hzeros]
    · simp [htake, hzeros, hdrop]

theorem not_mem_scientific (h : AllDigits cs) (point : Int) : '\r' ∉ Binary64.scientific cs point := by
  have hzeros : ∀ n, '\r' ∉ List.replicate n '0' := fun n => (allDigits_zeros n).not_mem_return
  have hexponent := (allDigits_toDigits (point - 1).natAbs).not_mem_return
  have hcs := h.not_mem_return
  unfold Binary64.scientific
  dsimp only
  split
  · simp only [List.mem_cons, not_or] at hcs
    split <;> simp [hzeros, hexponent, hcs]
  · split <;> simp [hzeros, hexponent, hcs]

theorem not_mem_text (x : Binary64) : '\r' ∉ (x.text numberLayout).toList := by
  cases x with
  | nan => decide
  | infinite negative => cases negative <;> decide
  | finite negative m e =>
    rw [Binary64.text, String.toList_ofList]
    have hdigits := allDigits_toDigits (Binary64.shortest m e).1
    have hunsigned : ∀ {cs : List Char}, '\r' ∉ cs → '\r' ∉ (if negative then '-' :: cs else cs) := by
      intro cs hcs
      split
      · simp [hcs]
      · exact hcs
    refine hunsigned ?_
    dsimp only
    split
    · decide
    · split
      · exact not_mem_positional hdigits _
      · exact not_mem_scientific hdigits _

theorem cases_of_mem_renderItems {depth : Nat} {items : List Json} (h : c ∈ renderItems layout depth items) :
    c ∈ layout.comma ∨ c ∈ layout.lineBreak depth ∨ ∃ item ∈ items, c ∈ renderAt layout depth item := by
  induction items with
  | nil => cases h
  | cons item items ih =>
    simp only [renderItems, List.mem_append] at h
    rcases h with ((h | h) | h) | h
    · exact .inl h
    · exact .inr (.inl h)
    · exact .inr (.inr ⟨item, List.mem_cons_self, h⟩)
    · rcases ih h with h | h | ⟨item', hi, h⟩
      · exact .inl h
      · exact .inr (.inl h)
      · exact .inr (.inr ⟨item', List.mem_cons_of_mem _ hi, h⟩)

theorem cases_of_mem_renderEntries {depth : Nat} {entries : List (String × Json)}
    (h : c ∈ renderEntries layout depth entries) : c ∈ layout.comma ∨ c ∈ layout.lineBreak depth ∨ c ∈ layout.colon ∨
      ∃ entry ∈ entries, c ∈ renderString entry.1 ∨ c ∈ renderAt layout depth entry.2 := by
  induction entries with
  | nil => cases h
  | cons entry entries ih =>
    simp only [renderEntries, List.mem_append] at h
    rcases h with ((((h | h) | h) | h) | h) | h
    · exact .inl h
    · exact .inr (.inl h)
    · exact .inr (.inr (.inr ⟨entry, List.mem_cons_self, .inl h⟩))
    · exact .inr (.inr (.inl h))
    · exact .inr (.inr (.inr ⟨entry, List.mem_cons_self, .inr h⟩))
    · rcases ih h with h | h | h | ⟨entry', he, h⟩
      · exact .inl h
      · exact .inr (.inl h)
      · exact .inr (.inr (.inl h))
      · exact .inr (.inr (.inr ⟨entry', List.mem_cons_of_mem _ he, h⟩))

section

variable (hbreak : ∀ depth, '\r' ∉ layout.lineBreak depth) (hcomma : '\r' ∉ layout.comma)

include hbreak hcomma

theorem not_mem_arr (h : ∀ v ∈ items, ∀ depth, '\r' ∉ renderAt layout depth v) (depth : Nat) :
    '\r' ∉ renderAt layout depth (.arr items) := by
  intro hc
  cases items with
  | nil => exact absurd hc (by simp [renderAt])
  | cons item items =>
    simp only [renderAt, List.mem_cons, List.mem_append, List.cons_append, List.not_mem_nil, or_false] at hc
    rcases hc with hc | (((hc | hc) | hc) | hc) | hc
    · exact absurd hc (by decide)
    · exact hbreak _ hc
    · exact h item List.mem_cons_self _ hc
    · rcases cases_of_mem_renderItems hc with hc | hc | ⟨item', hi, hc⟩
      · exact hcomma hc
      · exact hbreak _ hc
      · exact h item' (List.mem_cons_of_mem _ hi) _ hc
    · exact hbreak _ hc
    · exact absurd hc (by decide)

theorem not_mem_obj (hcolon : '\r' ∉ layout.colon) (h : ∀ e ∈ entries, ∀ depth, '\r' ∉ renderAt layout depth e.2)
    (depth : Nat) : '\r' ∉ renderAt layout depth (.obj entries) := by
  intro hc
  cases entries with
  | nil => exact absurd hc (by simp [renderAt])
  | cons entry entries =>
    simp only [renderAt, List.mem_cons, List.mem_append, List.cons_append, List.not_mem_nil, or_false] at hc
    rcases hc with hc | (((((hc | hc) | hc) | hc) | hc) | hc) | hc
    · exact absurd hc (by decide)
    · exact hbreak _ hc
    · exact not_mem_renderString _ hc
    · exact hcolon hc
    · exact h entry List.mem_cons_self _ hc
    · rcases cases_of_mem_renderEntries hc with hc | hc | hc | ⟨entry', he, hc | hc⟩
      · exact hcomma hc
      · exact hbreak _ hc
      · exact hcolon hc
      · exact not_mem_renderString _ hc
      · exact h entry' (List.mem_cons_of_mem _ he) _ hc
    · exact hbreak _ hc
    · exact absurd hc (by decide)

/-- **The text of a value has no carriage returns**, if its layout has none. -/
theorem not_mem_renderAt (hcolon : '\r' ∉ layout.colon) (hv : IsProper v) :
    ∀ depth, '\r' ∉ renderAt layout depth v := by
  induction hv with
  | null =>
    intro depth
    simp [renderAt]
  | bool b =>
    intro depth
    cases b <;> simp [renderAt]
  | int n =>
    intro depth
    rw [renderAt, toList_toString]
    have hdigits := (allDigits_toDigits n.natAbs).not_mem_return
    split <;> simp [hdigits]
  | @float x =>
    intro depth
    exact not_mem_text x
  | str s =>
    intro depth
    exact not_mem_renderString s
  | arr _ ih => exact not_mem_arr hbreak hcomma ih
  | obj _ _ ih => exact not_mem_obj hbreak hcomma hcolon ih

end

/-- The text of a value is read from a file as it was written. -/
theorem unifyLineEnds_indented (hv : IsProper v) :
    String.ofList (unifyLineEnds v.indented.toList) = v.indented := by
  have hreturn : '\r' ∉ v.indented.toList := by
    rw [indented, render, String.toList_ofList]
    refine not_mem_renderAt ?_ (by decide) (by decide) hv 0
    intro depth hc
    rcases List.mem_cons.1 hc with hc | hc
    · exact absurd hc (by decide)
    · exact absurd (List.eq_of_mem_replicate hc) (by decide)
  rw [unifyLineEnds_of_not_mem hreturn, String.ofList_toList]

end FixtureCheck.Json
