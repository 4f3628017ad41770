import FixtureCheck.GraphQL.Name

/-!
# Names of the grammar

`IsName` says that a text is a name: it begins with a letter or an underscore, which digits may follow too. So a name is
not empty and holds neither dots nor quotation marks, and it does not begin with a digit.
-/

namespace FixtureCheck.GraphQL

/-- **Is a text a name?** -/
def IsName (text : String) : Prop := nameError? text = none

instance (text : String) : Decidable (IsName text) := inferInstanceAs (Decidable (nameError? text = none))

variable {text : String}

/-- No digit may begin a name. -/
theorem isNameStart_of_isDigit {c : Char} (h : c.isDigit = true) : isNameStart c = false := by
  have hdigit : c.val ≤ '9'.val := of_decide_eq_true (Bool.and_eq_true_iff.1 h).2
  have hletter : ∀ first : UInt32, '9'.val < first → ¬ first ≤ c.val := fun first hfirst hle =>
    UInt32.lt_irrefl _ (UInt32.lt_of_lt_of_le hfirst (UInt32.le_trans hle hdigit))
  have hupper : c.isUpper = false :=
    Bool.eq_false_iff.2 fun hu => hletter 'A'.val (by decide) (of_decide_eq_true hu).1
  have hlower : c.isLower = false :=
    Bool.eq_false_iff.2 fun hl => hletter 'a'.val (by decide) (of_decide_eq_true (Bool.and_eq_true_iff.1 hl).1)
  have hunderscore : (c == '_') = false := by
    rw [beq_eq_false_iff_ne]
    rintro rfl
    cases h
  show ((c.isUpper || c.isLower) || c == '_') = false
  rw [hupper, hlower, hunderscore, Bool.or_self, Bool.or_self]

/-- **A name has a first character that may begin it**, and all of its characters may continue it. -/
theorem isName_iff : IsName text ↔
    (∃ c ∈ text.toList.head?, isNameStart c = true) ∧ ∀ c ∈ text.toList, isNameContinue c = true := by
  unfold IsName nameError?
  cases text.toList with
  | nil => simp
  | cons first rest =>
    simp only [List.head?_cons, Option.mem_some_iff, exists_eq_left', ← List.all_eq_true]
    cases (first :: rest).all isNameContinue <;> cases isNameStart first <;> simp

/-- A character that may begin a name may continue it. -/
theorem isNameContinue_of_isNameStart {c : Char} (h : isNameStart c = true) : isNameContinue c = true := by
  unfold isNameStart at h
  unfold isNameContinue Char.isAlphanum
  simp only [Bool.or_eq_true] at h ⊢
  exact h.imp_left .inl

/-- Characters that may follow each other in a name make one. -/
theorem isName_ofList {first : Char} {rest : List Char} (h : isNameStart first = true)
    (hrest : ∀ c ∈ rest, isNameContinue c = true) : IsName (String.ofList (first :: rest)) := by
  rw [isName_iff, String.toList_ofList]
  exact ⟨⟨first, rfl, h⟩, List.forall_mem_cons.2 ⟨isNameContinue_of_isNameStart h, hrest⟩⟩

namespace IsName

theorem isNameContinue (h : IsName text) : ∀ c ∈ text.toList, isNameContinue c = true := (isName_iff.1 h).2

theorem ne_empty (h : IsName text) : text ≠ "" := by
  rintro rfl
  cases h

/-- A name is not the text of a number. -/
theorem ne_toString (h : IsName text) (n : Nat) : text ≠ toString n := by
  rintro rfl
  obtain ⟨c, hc, hstart⟩ := (isName_iff.1 h).1
  have hmem : c ∈ Nat.toDigits 10 n := List.mem_of_mem_head? (by simpa using hc)
  have hdigit : c.isDigit = true := Nat.isDigit_of_mem_toDigits (by decide) (by decide) hmem
  rw [isNameStart_of_isDigit hdigit] at hstart
  cases hstart

end IsName

end FixtureCheck.GraphQL
