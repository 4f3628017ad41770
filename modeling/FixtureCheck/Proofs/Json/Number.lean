import FixtureCheck.Json.Parser
import FixtureCheck.Json.Printer
import FixtureCheck.Proofs.Number.Shortest

/-!
# Numbers are read as they were written

Whatever comes behind it, as long as it cannot be a part of a number (`EndsNumber`):

- the text of an integer is read as that integer (`number_int`);
- the text of a binary number is read as a decimal of the size of its shortest one (`readsDecimal_written`), whether its
  point is written out or not, and so as that number (`number_text`).

A text that is nothing but digits is also read as a natural number, which is their value (`toNat?_of_allDigits`).
-/

namespace FixtureCheck.Json

/-- **May a number end before these characters?** -/
def EndsNumber (rest : List Char) : Prop :=
  ∀ c ∈ rest.head?, c.isDigit = false ∧ c ≠ '.' ∧ c ≠ 'e' ∧ c ≠ 'E'

/-- **Are all characters digits?** -/
def AllDigits (ds : List Char) : Prop := ∀ c ∈ ds, c.isDigit = true

variable {ds rest : List Char} {negative : Bool}

/-! ## Runs of digits -/

theorem AllDigits.head (h : AllDigits ds) : ∀ c ∈ ds.head?, c.isDigit = true := by
  intro c hc
  exact h c (List.mem_of_head? hc)

theorem AllDigits.append {ds' : List Char} (h : AllDigits ds) (h' : AllDigits ds') : AllDigits (ds ++ ds') := by
  intro c hc
  rcases List.mem_append.1 hc with hc | hc
  · exact h c hc
  · exact h' c hc

theorem allDigits_zeros (n : Nat) : AllDigits (List.replicate n '0') := by
  intro c hc
  rw [List.eq_of_mem_replicate hc]
  rfl

theorem allDigits_toDigits (n : Nat) : AllDigits (Nat.toDigits 10 n) := by
  intro c hc
  exact Nat.isDigit_of_mem_toDigits (by decide) (by decide) hc

/-- A run of digits ends where the digits do. -/
theorem spanDigits_append (hd : AllDigits ds) (hr : ∀ c ∈ rest.head?, c.isDigit = false) :
    spanDigits (ds ++ rest) = (ds, rest) := by
  have hhead : rest.takeWhile Char.isDigit = [] ∧ rest.dropWhile Char.isDigit = rest := by
    cases rest with
    | nil => exact ⟨rfl, rfl⟩
    | cons c rest =>
      have hc : c.isDigit = false := hr c rfl
      simp [hc]
  unfold spanDigits
  rw [List.takeWhile_append_of_pos hd, List.dropWhile_append_of_pos hd, hhead.1, hhead.2, List.append_nil]

/-! ## Values of digits -/

theorem digitsValue_eq (ds : List Char) : digitsValue ds = Nat.ofDigitChars 10 ds 0 :=
  Nat.ofDigitChars_eq_foldl.symm

theorem digitsValue_toDigits (n : Nat) : digitsValue (Nat.toDigits 10 n) = n := by
  rw [digitsValue_eq, Nat.ofDigitChars_ten_toDigits]

theorem digitsValue_zeros (n : Nat) (ds : List Char) : digitsValue (List.replicate n '0' ++ ds) = digitsValue ds := by
  rw [digitsValue_eq, digitsValue_eq, Nat.ofDigitChars_append, Nat.ofDigitChars_replicate_zero, Nat.mul_zero]

theorem digitsValue_append_zeros (ds : List Char) (n : Nat) :
    digitsValue (ds ++ List.replicate n '0') = digitsValue ds * tenPow n := by
  rw [digitsValue_eq, digitsValue_eq, Nat.ofDigitChars_append, Nat.ofDigitChars_replicate_zero, Nat.mul_comm]
  rfl

/-- A positive number does not begin with a zero. -/
theorem head_toDigits_ne {n : Nat} (hn : 0 < n) : ∀ c ∈ (Nat.toDigits 10 n).head?, c ≠ '0' := by
  induction n using Nat.strong_induction_on with
  | _ n ih =>
    by_cases h : n < 10
    · rw [Nat.toDigits_of_lt_base h]
      intro c hc
      cases hc
      rw [ne_eq, Nat.digitChar_eq_zero]
      omega
    · rw [Nat.toDigits_of_base_le (by decide) (by omega), List.head?_append_of_ne_nil _ Nat.toDigits_ne_nil]
      exact ih (n / 10) (by omega) (by omega)

/-! ## Texts of digits -/

/-- A loop each step of which comes to the same state comes to that state. -/
theorem forIn_eq_of_forall {σ : Type} {step : Char → σ → Id (ForInStep σ)} (last : σ) : ∀ {cs : List Char}, cs ≠ [] →
    (∀ c ∈ cs, ∀ state, step c state = .yield last) → ∀ state, (forIn cs state step : Id σ) = last
  | [], hne, _, _ => absurd rfl hne
  | [c], _, h, state => by
    rw [List.forIn_cons, h c List.mem_cons_self]
    rfl
  | c :: next :: cs, _, h, state => by
    rw [List.forIn_cons, h c List.mem_cons_self]
    exact forIn_eq_of_forall last (List.cons_ne_nil _ _) (fun c' hc' => h c' (List.mem_cons_of_mem _ hc')) last

theorem AllDigits.ne_underscore (h : AllDigits ds) : ∀ c ∈ ds, c ≠ '_' := by
  rintro c hc rfl
  cases h '_' hc

/-- A text of digits is a number. -/
theorem isNat_of_allDigits {text : String} (hne : text.toList ≠ []) (h : AllDigits text.toList) :
    text.toSlice.isNat = true := by
  unfold String.Slice.isNat
  dsimp only
  -- each digit leaves the loop in the state in which it may end
  rw [String.Slice.forIn_eq_forIn_toList, String.copy_toSlice, forIn_eq_of_forall (none, true) hne]
  · rfl
  · intro c hc state
    rw [if_neg (h.ne_underscore c hc), if_pos (h c hc)]
    rfl

/-- **A text of digits is read as their value.** -/
theorem toNat?_of_allDigits {text : String} (hne : text.toList ≠ []) (h : AllDigits text.toList) :
    text.toNat? = some (digitsValue text.toList) := by
  have hvalue : ∀ n, ∀ c ∈ text.toList,
      (if c = '_' then n else n * 10 + (c.toNat - '0'.toNat)) = 10 * n + (c.toNat - '0'.toNat) := by
    intro n c hc
    rw [if_neg (h.ne_underscore c hc), Nat.mul_comm]
  show text.toSlice.toNat? = _
  unfold String.Slice.toNat?
  rw [if_pos (isNat_of_allDigits hne h), String.Slice.foldl_eq_foldl_toList, String.copy_toSlice,
    List.foldl_ext _ _ 0 hvalue]
  rfl

/-! ## Parts of numbers -/

/-- **Are these the digits of a whole part?** A zero, or digits that begin with another one. -/
def IsWhole (ds : List Char) : Prop := ds ≠ [] ∧ AllDigits ds ∧ ∀ c ∈ ds.head?, c = '0' → ds = ['0']

theorem isWhole_toDigits (n : Nat) : IsWhole (Nat.toDigits 10 n) := by
  refine ⟨Nat.toDigits_ne_nil, allDigits_toDigits n, ?_⟩
  intro c hc hzero
  rcases Nat.eq_zero_or_pos n with rfl | hn
  · exact Nat.toDigits_zero 10
  · exact absurd hzero (head_toDigits_ne hn c hc)

theorem isWhole_zero : IsWhole ['0'] := ⟨by simp, allDigits_zeros 1, by simp⟩

/-- Digits with zeros behind them, when the number does not begin with a zero. -/
theorem isWhole_append_zeros (hne : ds ≠ []) (hd : AllDigits ds) (hh : ∀ c ∈ ds.head?, c ≠ '0') (n : Nat) :
    IsWhole (ds ++ List.replicate n '0') := by
  refine ⟨by simp [hne], hd.append (allDigits_zeros n), ?_⟩
  rw [List.head?_append_of_ne_nil _ hne]
  intro c hc hzero
  exact absurd hzero (hh c hc)

theorem IsWhole.head_append (hw : IsWhole ds) (cs : List Char) : ∀ c ∈ (ds ++ cs).head?, c.isDigit = true := by
  rw [List.head?_append_of_ne_nil _ hw.1]
  exact hw.2.1.head

theorem wholePart_append (h : IsWhole ds) (hr : ∀ c ∈ rest.head?, c.isDigit = false) :
    wholePart (ds ++ rest) = some (ds, rest) := by
  obtain ⟨hne, hd, hzero⟩ := h
  cases ds with
  | nil => exact absurd rfl hne
  | cons c ds =>
    by_cases hc : c = '0'
    · obtain ⟨-, rfl⟩ : c = '0' ∧ ds = [] := by simpa using hzero c rfl hc
      subst hc
      rfl
    · have hdigit : c.isDigit = true := hd c List.mem_cons_self
      rw [List.cons_append, wholePart, if_pos hdigit, ← List.cons_append, spanDigits_append hd hr]
      exact hc

theorem fractionPart_append (hne : ds ≠ []) (hd : AllDigits ds) (hr : ∀ c ∈ rest.head?, c.isDigit = false) :
    fractionPart ('.' :: ds ++ rest) = (some ds, rest) := by
  cases ds with
  | nil => exact absurd rfl hne
  | cons c ds =>
    have hdigit : c.isDigit = true := hd c List.mem_cons_self
    simp only [List.cons_append, fractionPart, hdigit, if_true]
    rw [← List.cons_append, spanDigits_append hd hr]
    rfl

theorem fractionPart_of_ne (hr : ∀ c ∈ rest.head?, c ≠ '.') : fractionPart rest = (none, rest) := by
  unfold fractionPart
  split
  · exact absurd rfl (hr '.' rfl)
  · rfl

theorem exponentPart_of_ne (hr : ∀ c ∈ rest.head?, c ≠ 'e' ∧ c ≠ 'E') : exponentPart rest = (none, rest) := by
  cases rest with
  | nil => rfl
  | cons c rest =>
    obtain ⟨h1, h2⟩ := hr c rfl
    simp [exponentPart, h1, h2]

theorem exponentPart_append (negative : Bool) (hne : ds ≠ []) (hd : AllDigits ds)
    (hr : ∀ c ∈ rest.head?, c.isDigit = false) :
    exponentPart ('e' :: (if negative then '-' else '+') :: ds ++ rest) =
      (some (if negative then -(digitsValue ds : Int) else digitsValue ds), rest) := by
  have hspan := spanDigits_append hd hr
  cases ds with
  | nil => exact absurd rfl hne
  | cons c ds =>
    rw [List.cons_append] at hspan
    cases negative <;> simp [exponentPart, hspan]

/-! ## Integers -/

theorem EndsNumber.not_isDigit (h : EndsNumber rest) : ∀ c ∈ rest.head?, c.isDigit = false := by
  intro c hc
  exact (h c hc).1

theorem EndsNumber.fractionPart (h : EndsNumber rest) : fractionPart rest = (none, rest) := by
  refine fractionPart_of_ne ?_
  intro c hc
  exact (h c hc).2.1

theorem EndsNumber.exponentPart (h : EndsNumber rest) : exponentPart rest = (none, rest) := by
  refine exponentPart_of_ne ?_
  intro c hc
  exact (h c hc).2.2

/-- A number with neither a fraction nor an exponent. -/
theorem unsignedNumber_int (h : EndsNumber rest) (hw : IsWhole ds) : unsignedNumber negative (ds ++ rest) =
    some (.int (if negative then -(digitsValue ds : Int) else digitsValue ds), rest) := by
  unfold unsignedNumber
  rw [wholePart_append hw h.not_isDigit]
  simp [h.fractionPart, h.exponentPart]

/-- A number with a fraction. -/
theorem unsignedNumber_fraction {whole fraction : List Char} (h : EndsNumber rest) (hw : IsWhole whole)
    (hne : fraction ≠ []) (hd : AllDigits fraction) : unsignedNumber negative (whole ++ '.' :: fraction ++ rest) =
      some (.float (.ofDecimal negative (digitsValue (whole ++ fraction)) (-(fraction.length : Int))), rest) := by
  unfold unsignedNumber
  rw [List.append_assoc, wholePart_append hw (by simp)]
  simp only [Option.bind_eq_bind, Option.bind_some]
  rw [fractionPart_append hne hd h.not_isDigit]
  simp [h.exponentPart]

/-- A number with an exponent and perhaps a fraction. -/
theorem unsignedNumber_exponent {whole fraction exponent : List Char} (minus : Bool) (h : EndsNumber rest)
    (hw : IsWhole whole) (hd : AllDigits fraction) (hne : exponent ≠ []) (he : AllDigits exponent) :
    unsignedNumber negative (whole ++ (if fraction = [] then [] else '.' :: fraction) ++
      'e' :: (if minus then '-' else '+') :: exponent ++ rest) =
      some (.float (.ofDecimal negative (digitsValue (whole ++ fraction))
        ((if minus then -(digitsValue exponent : Int) else digitsValue exponent) - fraction.length)), rest) := by
  have hexp := exponentPart_append minus hne he h.not_isDigit
  unfold unsignedNumber
  by_cases hf : fraction = []
  · subst hf
    simp only [if_true, List.append_nil, List.append_assoc]
    rw [wholePart_append hw (by simp)]
    simp only [Option.bind_eq_bind, Option.bind_some]
    rw [fractionPart_of_ne (by simp), hexp]
    simp
  · simp only [if_neg hf, List.append_assoc]
    rw [wholePart_append hw (by simp)]
    simp only [Option.bind_eq_bind, Option.bind_some]
    rw [fractionPart_append hf hd (by simp), hexp]
    simp

theorem number_unsigned {c : Char} {cs : List Char} (hc : c.isDigit = true) :
    number (c :: cs) = unsignedNumber false (c :: cs) := by
  rw [number]
  all_goals
    intro _ h
    obtain ⟨rfl, -⟩ := List.cons.inj h
    exact absurd hc (by decide)

theorem number_minus {c : Char} {cs : List Char} (hc : c.isDigit = true) :
    number ('-' :: c :: cs) = unsignedNumber true (c :: cs) := by
  rw [number]
  intro _ h
  obtain ⟨rfl, -⟩ := List.cons.inj h
  exact absurd hc (by decide)

/-- A number behind its sign. -/
theorem number_signed {cs : List Char} (hc : ∀ c ∈ cs.head?, c.isDigit = true) (hne : cs ≠ []) :
    number ((if negative then '-' :: cs else cs) ++ rest) = unsignedNumber negative (cs ++ rest) := by
  cases cs with
  | nil => exact absurd rfl hne
  | cons c cs =>
    cases negative with
    | false => exact number_unsigned (hc c rfl)
    | true => exact number_minus (hc c rfl)

theorem toList_toString (n : Int) :
    (toString n).toList = if decide (n < 0) then '-' :: Nat.toDigits 10 n.natAbs else Nat.toDigits 10 n.natAbs := by
  rw [Int.toString_eq_repr, Int.repr_eq_if]
  cases n with
  | ofNat k => simp [Nat.toList_repr]
  | negSucc k =>
    have hneg : ¬ 0 ≤ Int.negSucc k := by omega
    rw [if_neg hneg, String.toList_append, Nat.toList_repr]
    simp [Int.negSucc_lt_zero]

/-- **Reading the text of an integer gives the integer.** -/
theorem number_int (h : EndsNumber rest) (n : Int) : number ((toString n).toList ++ rest) = some (.int n, rest) := by
  rw [toList_toString, number_signed (allDigits_toDigits _).head Nat.toDigits_ne_nil,
    unsignedNumber_int h (isWhole_toDigits _), digitsValue_toDigits]
  cases n with
  | ofNat k => simp
  | negSucc k =>
    simp [Int.negSucc_lt_zero]
    omega

/-! ## Binary numbers -/

open Binary64

/-- **Is a text read as a decimal** of a given size? -/
def ReadsDecimal (negative : Bool) (rest cs : List Char) (x : ℚ) : Prop :=
  cs ≠ [] ∧ (∀ c ∈ cs.head?, c.isDigit = true) ∧
  ∃ (digits : Nat) (exponent : Int), (digits : ℚ) * 10 ^ exponent = x ∧
    unsignedNumber negative (cs ++ rest) = some (.float (.ofDecimal negative digits exponent), rest)

/-- A decimal with a fraction. -/
theorem readsDecimal_fraction {whole fraction : List Char} {x : ℚ} (h : EndsNumber rest) (hw : IsWhole whole)
    (hne : fraction ≠ []) (hd : AllDigits fraction)
    (hx : (digitsValue (whole ++ fraction) : ℚ) * 10 ^ (-(fraction.length : Int)) = x) :
    ReadsDecimal negative rest (whole ++ '.' :: fraction) x :=
  ⟨by simp, hw.head_append _, _, _, hx, unsignedNumber_fraction h hw hne hd⟩

/-- A decimal whose point is written out. -/
theorem readsDecimal_positional (h : EndsNumber rest) {d : Nat} (hd : 0 < d) (point : Int) :
    ReadsDecimal negative rest (positional (Nat.toDigits 10 d) point)
      (d * 10 ^ (point - (Nat.toDigits 10 d).length)) := by
  have hall := allDigits_toDigits d
  have hvalue := digitsValue_toDigits d
  have hne : Nat.toDigits 10 d ≠ [] := Nat.toDigits_ne_nil
  have hhead := head_toDigits_ne hd
  generalize Nat.toDigits 10 d = ds at *
  unfold positional
  split
  next hpoint =>
    have hdigits : digitsValue (['0'] ++ (List.replicate (-point).toNat '0' ++ ds)) = d := by
      rw [← List.append_assoc]
      exact (digitsValue_zeros ((-point).toNat + 1) ds).trans hvalue
    refine readsDecimal_fraction h isWhole_zero (by simp [hne]) ((allDigits_zeros _).append hall) ?_
    rw [hdigits, List.length_append, List.length_replicate]
    congr 2
    omega
  next hpoint =>
    obtain ⟨p, rfl⟩ := Int.eq_ofNat_of_zero_le (by omega : 0 ≤ point)
    have hp : p ≠ 0 := by omega
    rw [Int.toNat_natCast]
    dsimp only
    split
    next hdrop =>
      have hlen : ds.length ≤ p := List.drop_eq_nil_iff.1 hdrop
      rw [List.take_of_length_le hlen]
      refine readsDecimal_fraction h (isWhole_append_zeros hne hall hhead _) (by simp) (allDigits_zeros 1) ?_
      have hdigits : digitsValue (ds ++ List.replicate (p - ds.length) '0' ++ ['0']) =
          d * tenPow (p - ds.length + 1) := by
        rw [List.append_assoc, ← List.replicate_succ', digitsValue_append_zeros, hvalue]
      rw [hdigits, Nat.cast_mul, tenPow_cast, mul_assoc, ← zpow_natCast, ← zpow_add₀ (by norm_num)]
      congr 2
      simp
      omega
    next fraction hdrop =>
      have hlen : p < ds.length := by
        by_contra hle
        exact hdrop (List.drop_eq_nil_iff.2 (not_lt.1 hle))
      have htake : ds.take p ≠ [] := by simp [hne, hp]
      have hpad : List.replicate (p - ds.length) '0' = [] := by
        rw [List.replicate_eq_nil_iff]
        omega
      have hhead' : ∀ c ∈ (ds.take p).head?, c ≠ '0' := by
        rw [List.head?_take, if_neg hp]
        exact hhead
      have hw := isWhole_append_zeros htake (fun c hc => hall c (List.mem_of_mem_take hc)) hhead' (p - ds.length)
      refine readsDecimal_fraction h hw hdrop (fun c hc => hall c (List.mem_of_mem_drop hc)) ?_
      rw [hpad, List.append_nil, List.take_append_drop, hvalue, List.length_drop]
      congr 2
      omega

/-- A decimal with an exponent. -/
theorem readsDecimal_scientific (h : EndsNumber rest) (d : Nat) (point : Int) :
    ReadsDecimal negative rest (scientific (Nat.toDigits 10 d) point)
      (d * 10 ^ (point - (Nat.toDigits 10 d).length)) := by
  have hall := allDigits_toDigits d
  have hvalue := digitsValue_toDigits d
  obtain ⟨c, fraction, hds⟩ := List.exists_cons_of_ne_nil (Nat.toDigits_ne_nil (n := d) (b := 10))
  rw [hds] at hall hvalue ⊢
  have hw : IsWhole [c] := ⟨by simp, fun c' hc => hall c' (by simp_all), by simp⟩
  have hfraction : AllDigits fraction := fun c' hc => hall c' (List.mem_cons_of_mem c hc)
  obtain ⟨exponent, hexponent⟩ : ∃ exponent, exponent = Nat.toDigits 10 (point - 1).natAbs := ⟨_, rfl⟩
  have hshape : scientific (c :: fraction) point =
      [c] ++ (if fraction = [] then [] else '.' :: fraction) ++
        'e' :: (if decide (point - 1 < 0) then '-' else '+') ::
          (List.replicate (2 - exponent.length) '0' ++ exponent) := by
    subst hexponent
    cases fraction <;> simp [scientific]
  have hdigits : digitsValue (List.replicate (2 - exponent.length) '0' ++ exponent) = (point - 1).natAbs := by
    rw [digitsValue_zeros, hexponent, digitsValue_toDigits]
  refine ⟨?_, ?_, d, point - (c :: fraction).length, rfl, ?_⟩
  · rw [hshape]
    simp
  · rw [hshape, List.append_assoc]
    exact hw.head_append _
  · rw [hshape, unsignedNumber_exponent _ h hw hfraction (by simp [hexponent, Nat.toDigits_ne_nil])
      ((allDigits_zeros _).append (hexponent ▸ allDigits_toDigits _)), hdigits, List.singleton_append, hvalue]
    congr 4
    rw [List.length_cons]
    split
    next hneg =>
      have := of_decide_eq_true hneg
      omega
    next hneg =>
      have := of_decide_eq_false (Bool.not_eq_true _ ▸ hneg)
      omega

/-- Both ways to write a decimal. -/
theorem readsDecimal_written {c : Prop} [Decidable c] (h : EndsNumber rest) {d : Nat} (hd : 0 < d) (k : Int) :
    ReadsDecimal negative rest (if c then positional (Nat.toDigits 10 d) (k + (Nat.toDigits 10 d).length)
      else scientific (Nat.toDigits 10 d) (k + (Nat.toDigits 10 d).length)) (d * 10 ^ k) := by
  have hk : k = k + (Nat.toDigits 10 d).length - (Nat.toDigits 10 d).length := (add_sub_cancel_right k _).symm
  split
  · have hread : ReadsDecimal negative rest _ _ := readsDecimal_positional h hd (k + (Nat.toDigits 10 d).length)
    rw [← hk] at hread
    exact hread
  · have hread : ReadsDecimal negative rest _ _ := readsDecimal_scientific h d (k + (Nat.toDigits 10 d).length)
    rw [← hk] at hread
    exact hread

theorem ReadsDecimal.number {cs : List Char} {x : ℚ} {value : Binary64} (h : ReadsDecimal negative rest cs x)
    (hv : ∀ (digits : Nat) (exponent : Int),
      (digits : ℚ) * 10 ^ exponent = x → ofDecimal negative digits exponent = value) :
    number ((if negative then '-' :: cs else cs) ++ rest) = some (.float value, rest) := by
  obtain ⟨hne, hhead, digits, exponent, hx, hread⟩ := h
  rw [number_signed hhead hne, hread, hv digits exponent hx]

/-- **Reading the text of a binary number gives the number.** -/
theorem number_text {x : Binary64} (hx : x.IsCanonical) (h : EndsNumber rest) :
    number ((x.text numberLayout).toList ++ rest) = some (.float x, rest) := by
  cases x with
  | nan => rfl
  | infinite negative => cases negative <;> rfl
  | finite negative m e =>
    rw [text, String.toList_ofList]
    rcases Nat.eq_zero_or_pos m with rfl | hm
    · obtain ⟨-, -, -, hzero | rfl⟩ := hx
      · exact absurd hzero (by decide)
      have hread : ReadsDecimal negative rest ['0', '.', '0'] 0 :=
        readsDecimal_fraction h isWhole_zero (by simp) (allDigits_zeros 1) (by simp [digitsValue])
      refine hread.number ?_
      intro digits exponent hzero
      have hpow : (10 : ℚ) ^ exponent ≠ 0 := by positivity
      obtain rfl : digits = 0 := by simpa [hpow] using hzero
      rfl
    · rw [if_neg hm.ne']
      have hcover := covers_shortest hm hx
      have hd : 0 < (shortest m e).1 := Nat.pos_of_ne_zero (ne_zero_of_roundsTo hm (roundsTo_iff.2 hcover))
      refine (readsDecimal_written h hd (shortest m e).2).number ?_
      intro digits exponent heq
      exact ofDecimal_of_covers hm hx (heq ▸ hcover)

end FixtureCheck.Json
