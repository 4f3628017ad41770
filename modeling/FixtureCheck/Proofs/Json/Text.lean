import FixtureCheck.Json.Parser
import FixtureCheck.Json.Printer

/-!
# Strings are read as they were written

A character of a string is written as itself or as an escape, and is read back from it (`stringPiece_escapeChar`), if at
least one character comes behind it, as the closing quote does; so a string is (`stringBody_written`).
-/

namespace FixtureCheck.Json

variable {α : Type} {c : Char} {cs rest : List Char} {opening : Nat}

/-! ## Units -/

theorem hexValue?_digitChar {n : Nat} (hn : n < 16) : hexValue? (Nat.digitChar n) = some n := by
  revert n
  decide

/-- The last digit of a hexadecimal number. -/
theorem hex_succ {width : Nat} (hw : 0 < width) (n : Nat) :
    Text.hex (width + 1) n = Text.hex width (n / 16) ++ [Nat.digitChar (n % 16)] := by
  unfold Text.hex
  by_cases hn : n < 16
  · obtain ⟨w, rfl⟩ : ∃ w, width = w + 1 := ⟨width - 1, by omega⟩
    rw [Nat.toDigits_of_lt_base hn, Nat.div_eq_of_lt hn, Nat.mod_eq_of_lt hn, Nat.toDigits_zero]
    simp [List.replicate_succ']
  · rw [Nat.toDigits_of_base_le (by decide) (Nat.not_lt.1 hn)]
    simp

/-- A unit is read from its four digits. -/
theorem escapeUnit_eq {n : Nat} (hn : n < 0x10000) :
    ∃ a b c d, escapeUnit n = ['\\', 'u', a, b, c, d] ∧ hex4? a b c d = some n := by
  have hhex : Text.hex 4 n = [Nat.digitChar (n / 16 / 16 / 16), Nat.digitChar (n / 16 / 16 % 16),
      Nat.digitChar (n / 16 % 16), Nat.digitChar (n % 16)] := by
    rw [hex_succ (by decide), hex_succ (by decide), hex_succ (by decide), Text.hex,
      Nat.toDigits_of_lt_base (by omega)]
    rfl
  refine ⟨_, _, _, _, congrArg (fun digits => '\\' :: 'u' :: digits) hhex, ?_⟩
  unfold hex4?
  rw [hexValue?_digitChar (by omega), hexValue?_digitChar (by omega), hexValue?_digitChar (by omega),
    hexValue?_digitChar (by omega)]
  show some _ = some n
  congr 1
  omega

/-! ## Characters -/

/-- **Does a reader return a value and leave these characters?** -/
def Reads (outcome : Except Stop (α × Rest cs)) (a : α) (rest : List Char) : Prop :=
  ∃ h, outcome = .ok (a, ⟨rest, h⟩)

theorem stringPiece_plain (hquote : c ≠ '"') (hslash : c ≠ '\\') (hc : 0x20 ≤ c.toNat) :
    Reads (stringPiece opening (c :: rest)) (some c) rest := by
  refine ⟨by simp, ?_⟩
  rw [stringPiece]
  · rw [if_neg (Nat.not_lt.2 hc)]
  · exact fun h => absurd h hquote
  · exact fun h => absurd h hslash
  · exact fun _ _ _ _ _ _ h => absurd h hslash
  · exact fun _ h => absurd h hslash
  · exact fun _ _ h => absurd h hslash

/-- A unit that is no half of a pair. -/
theorem stringPiece_unit {n : Nat} (e : Char) (hn : n < 0x10000) (hpair : n < 0xD800 ∨ 0xE000 ≤ n) :
    Reads (stringPiece opening (escapeUnit n ++ e :: rest)) (some (Char.ofNat n)) (e :: rest) := by
  obtain ⟨a, b, c, d, hshape, hvalue⟩ := escapeUnit_eq hn
  have hhigh : (decide (0xD800 ≤ n) && decide (n < 0xDC00)) = false := by
    simp
    omega
  have hunit : ofUnit n = Char.ofNat n := by
    unfold ofUnit
    rw [if_neg]
    simp
    omega
  rw [hshape]
  refine ⟨by simp, ?_⟩
  simp only [List.cons_append, List.nil_append]
  rw [stringPiece, hvalue]
  dsimp only
  rw [hhigh, hunit]

/-- The two halves of a pair. -/
theorem stringPiece_pair {high low : Nat} (e : Char) (hh : high < 0x400) (hl : low < 0x400) :
    Reads (stringPiece opening (escapeUnit (0xD800 + high) ++ escapeUnit (0xDC00 + low) ++ e :: rest))
      (some (Char.ofNat (0x10000 + high * 0x400 + low))) (e :: rest) := by
  obtain ⟨a, b, c, d, hshape, hvalue⟩ := escapeUnit_eq (by omega : 0xD800 + high < 0x10000)
  obtain ⟨a', b', c', d', hshape', hvalue'⟩ := escapeUnit_eq (by omega : 0xDC00 + low < 0x10000)
  have hhigh : (decide (0xD800 ≤ 0xD800 + high) && decide (0xD800 + high < 0xDC00)) = true := by
    simp
    omega
  have hlow : (decide (0xDC00 ≤ 0xDC00 + low) && decide (0xDC00 + low < 0xE000)) = true := by
    simp
    omega
  rw [hshape, hshape']
  refine ⟨by simp, ?_⟩
  simp only [List.cons_append, List.nil_append]
  rw [stringPiece, hvalue]
  dsimp only
  simp only [hhigh, hvalue', hlow, if_true, Nat.add_sub_cancel_left]

/-- A character has a one-letter escape, stands for itself, or is written as one unit or two. -/
theorem escapeChar_cases (c : Char) :
    (∃ letter, letter ≠ 'u' ∧ shortEscape? letter = some c ∧ escapeChar c = ['\\', letter]) ∨
    (c ≠ '"' ∧ c ≠ '\\' ∧ 0x20 ≤ c.toNat ∧ escapeChar c = [c]) ∨
    (c.toNat < 0x10000 ∧ escapeChar c = escapeUnit c.toNat) ∨
    (0x10000 ≤ c.toNat ∧ escapeChar c =
      escapeUnit (0xD800 + (c.toNat - 0x10000) / 0x400) ++ escapeUnit (0xDC00 + (c.toNat - 0x10000) % 0x400)) := by
  unfold escapeChar
  split
  case h_8 hquote hslash _ _ _ _ _ =>
    dsimp only
    split
    next hplain =>
      simp only [Bool.and_eq_true, decide_eq_true_eq] at hplain
      exact .inr (.inl ⟨hquote, hslash, hplain.1, rfl⟩)
    next =>
      split
      next hn => exact .inr (.inr (.inl ⟨hn, rfl⟩))
      next hn => exact .inr (.inr (.inr ⟨Nat.not_lt.1 hn, rfl⟩))
  all_goals exact .inl ⟨_, by decide, by decide, rfl⟩

theorem stringPiece_short {letter : Char} (hu : letter ≠ 'u') (hc : shortEscape? letter = some c) :
    Reads (stringPiece opening ('\\' :: letter :: rest)) (some c) rest := by
  refine ⟨by rw [List.length_cons, List.length_cons]; omega, ?_⟩
  rw [stringPiece]
  · rw [hc]
  · exact fun _ _ _ _ _ _ h => absurd h hu
  · exact fun h => absurd h hu

/-- **A character is read from its escape.** -/
theorem stringPiece_escapeChar (opening : Nat) (c e : Char) (rest : List Char) :
    Reads (stringPiece opening (escapeChar c ++ e :: rest)) (some c) (e :: rest) := by
  have hc : Char.ofNat c.toNat = c := Char.ofNat_toNat c
  have hvalid : c.toNat < 0xD800 ∨ 0xDFFF < c.toNat ∧ c.toNat < 0x110000 := c.valid
  rcases escapeChar_cases c with ⟨letter, hu, hletter, h⟩ | ⟨hquote, hslash, hplain, h⟩ | ⟨hn, h⟩ | ⟨hn, h⟩
  · rw [h]
    exact stringPiece_short hu hletter
  · rw [h]
    exact stringPiece_plain hquote hslash hplain
  · rw [h]
    have hread : Reads (stringPiece opening (escapeUnit c.toNat ++ e :: rest)) _ _ :=
      stringPiece_unit e hn (by omega)
    rwa [hc] at hread
  · obtain ⟨n, hn'⟩ : ∃ n, c.toNat = 0x10000 + n := ⟨c.toNat - 0x10000, by omega⟩
    rw [h, hn', Nat.add_sub_cancel_left]
    have hread : Reads (stringPiece opening (escapeUnit _ ++ escapeUnit _ ++ e :: rest)) _ _ :=
      stringPiece_pair e (by omega : n / 0x400 < 0x400) (Nat.mod_lt n (by decide : 0 < 0x400))
    rwa [show 0x10000 + n / 0x400 * 0x400 + n % 0x400 = c.toNat by omega, hc] at hread

/-- **A string is read from its escapes**, up to the closing quote. -/
theorem stringBody_written (opening : Nat) (s rest : List Char) :
    Reads (stringBody opening (s.flatMap escapeChar ++ '"' :: rest)) s rest := by
  induction s with
  | nil =>
    rw [List.flatMap_nil, List.nil_append]
    refine ⟨by simp, ?_⟩
    rw [stringBody]
    rfl
  | cons c s ih =>
    obtain ⟨e, inner, hinner⟩ : ∃ e inner, s.flatMap escapeChar ++ '"' :: rest = e :: inner :=
      List.exists_cons_of_ne_nil (by simp)
    rw [hinner] at ih
    rw [List.flatMap_cons, List.append_assoc, hinner]
    obtain ⟨h, ih⟩ := ih
    obtain ⟨h', hpiece⟩ := stringPiece_escapeChar opening c e inner
    refine ⟨by omega, ?_⟩
    rw [stringBody, hpiece]
    dsimp only
    rw [ih]

end FixtureCheck.Json
