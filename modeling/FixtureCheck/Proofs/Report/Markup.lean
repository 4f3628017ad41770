import Mathlib.Data.List.TakeWhile
import FixtureCheck.Proofs.Except
import FixtureCheck.Report.Markup

/-!
# Texts inside markup

A text is inert if it holds no tags but escaped ones (`IsInert`). An escaped text is inert (`isInert_escape`), and so is
one without brackets. The parts of a text that others follow are its own, but for backslashes at its end
(`exists_piecesFrom_append`); so an inert text inside a style leaves the markup right, whether or not its backslashes
escape the tag that closes the style (`Balanced.styled`).
-/

namespace FixtureCheck.Report

variable {c : Char} {cs rest more content run : List Char} {k position : Nat} {styles : List String}
  {pieces : List Piece}

/-! ## Brackets -/

/-- Is the character a bracket? -/
def isBracket (c : Char) : Bool := c == ']' || c == '['

/-- **Does no bracket close before another one opens?** Then what stands in front of the characters begins no tag that
ends among them. -/
def ClosesNothing (cs : List Char) : Prop := cs.find? isBracket ≠ some ']'

theorem isBracket_eq_false_iff : isBracket c = false ↔ c ≠ ']' ∧ c ≠ '[' := by simp [isBracket]

theorem isBracket_of_startsTag (h : startsTag c = true) : isBracket c = false := by
  rw [isBracket_eq_false_iff]
  constructor
  · rintro rfl
    cases h
  · rintro rfl
    cases h

theorem tagAt_cons (c : Char) (cs : List Char) : tagAt (c :: cs) =
    if startsTag c && cs.find? isBracket == some ']' then some (c :: cs.takeWhile (!isBracket ·)) else none := by
  have hp : (fun c => c != ']' && c != '[') = fun c => !isBracket c := by
    funext c
    simp [isBracket, bne]
  have hdrop : cs.drop (cs.takeWhile (!isBracket ·)).length = cs.dropWhile (!isBracket ·) :=
    calc
      _ = (cs.takeWhile (!isBracket ·) ++ cs.dropWhile (!isBracket ·)).drop (cs.takeWhile (!isBracket ·)).length := by
        rw [List.takeWhile_append_dropWhile]
      _ = _ := List.drop_left
  unfold tagAt
  dsimp only
  rw [hp, hdrop, List.find?_eq_head?_dropWhile_not]

/-- What begins no tag, begins with another character, or another bracket opens before one closes. -/
theorem tagAt_eq_none_iff : tagAt cs = none ↔ cs.head?.any startsTag = false ∨ ClosesNothing cs := by
  cases cs with
  | nil => simp [tagAt]
  | cons c cs =>
    rw [tagAt_cons, ClosesNothing]
    cases hc : startsTag c with
    | false => simp [hc]
    | true => simp [hc, isBracket_of_startsTag hc]

/-- **Can the characters stand in a tag?** -/
structure IsTag (content : List Char) : Prop where
  starts : content.head?.any startsTag = true
  noBracket : ∀ c ∈ content, isBracket c = false

/-- A tag is what stands in front of the bracket that closes it. -/
theorem tagAt_eq_some_iff : tagAt cs = some content ↔ IsTag content ∧ ∃ rest, cs = content ++ ']' :: rest := by
  constructor
  · intro h
    cases cs with
    | nil => cases h
    | cons c cs =>
      rw [tagAt_cons] at h
      split at h
      next hclose =>
        cases h
        rw [List.find?_eq_head?_dropWhile_not] at hclose
        simp only [Bool.and_eq_true, beq_iff_eq, List.head?_eq_some_iff] at hclose
        obtain ⟨hstarts, rest, hrest⟩ := hclose
        refine ⟨⟨by simpa using hstarts, ?_⟩, rest, ?_⟩
        · intro c' hc'
          rcases List.mem_cons.1 hc' with rfl | hc'
          · exact isBracket_of_startsTag hstarts
          · simpa using List.mem_takeWhile_imp hc'
        · rw [List.cons_append, ← hrest, List.takeWhile_append_dropWhile]
      · cases h
  · rintro ⟨⟨hstarts, hno⟩, rest, rfl⟩
    cases content with
    | nil => cases hstarts
    | cons c content =>
      have hinner : ∀ c' ∈ content, isBracket c' = false := fun c' hc' => hno c' (List.mem_cons_of_mem _ hc')
      have hfind : (content ++ ']' :: rest).find? isBracket = some ']' := by
        rw [List.find?_append, List.find?_eq_none.2 (by simpa using hinner)]
        rfl
      have htake : (content ++ ']' :: rest).takeWhile (!isBracket ·) = content := by
        rw [List.takeWhile_append_of_pos (by simpa using hinner), List.takeWhile_cons_of_neg (by simp [isBracket]),
          List.append_nil]
      rw [List.cons_append, tagAt_cons, hfind, htake, if_pos]
      simpa using hstarts

/-- What begins no tag does not begin one if no bracket closes behind it. -/
theorem tagAt_append_eq_none (h : tagAt cs = none) (hr : ClosesNothing rest) : tagAt (cs ++ rest) = none := by
  rw [tagAt_eq_none_iff] at h ⊢
  cases cs with
  | nil => exact .inr hr
  | cons c cs =>
    rcases h with h | h
    · exact .inl h
    · right
      unfold ClosesNothing at h hr ⊢
      rw [List.find?_append]
      cases hf : (c :: cs).find? isBracket with
      | none => exact hr
      | some b => rwa [hf] at h

/-! ## Parts -/

theorem piecesFrom_char (h : c ≠ '\\') (h' : c ≠ '[') :
    piecesFrom k (c :: cs) = List.replicate k (.char '\\') ++ .char c :: piecesFrom 0 cs := by
  rw [piecesFrom]
  · exact h
  · exact h'

theorem piecesFrom_tag (h : IsTag content) :
    piecesFrom k ('[' :: (content ++ ']' :: rest)) = .tag k content :: piecesFrom 0 rest := by
  rw [piecesFrom, tagAt_eq_some_iff.2 ⟨h, rest, rfl⟩]
  simp

theorem piecesFrom_open (h : tagAt cs = none) :
    piecesFrom k ('[' :: cs) = List.replicate k (.char '\\') ++ .char '[' :: piecesFrom 0 cs := by
  rw [piecesFrom, h]

/-- The parts of a text that others follow are its own, but for backslashes at its end. -/
theorem exists_piecesFrom_append (k : Nat) (cs : List Char) : ∃ (pieces : List Piece) (j : Nat),
    piecesFrom k cs = pieces ++ List.replicate j (.char '\\') ∧
      ∀ rest, ClosesNothing rest → piecesFrom k (cs ++ rest) = pieces ++ piecesFrom j rest := by
  induction k, cs using piecesFrom.induct with
  | case1 k => exact ⟨[], k, by simp [piecesFrom], fun rest _ => rfl⟩
  | case2 k cs ih =>
    obtain ⟨pieces, j, halone, hall⟩ := ih
    refine ⟨pieces, j, by rw [piecesFrom, halone], fun rest hr => ?_⟩
    rw [List.cons_append, piecesFrom, hall rest hr]
  | case3 k cs content htag ih =>
    obtain ⟨hcontent, after, rfl⟩ := tagAt_eq_some_iff.1 htag
    obtain ⟨pieces, j, halone, hall⟩ := ih
    have hdrop : (content ++ ']' :: after).drop (content.length + 1) = after := by simp
    rw [hdrop] at halone hall
    refine ⟨.tag k content :: pieces, j, by rw [piecesFrom_tag hcontent, halone, List.cons_append], fun rest hr => ?_⟩
    rw [List.cons_append, List.append_assoc, List.cons_append, piecesFrom_tag hcontent, hall rest hr, List.cons_append]
  | case4 k cs htag ih =>
    obtain ⟨pieces, j, halone, hall⟩ := ih
    refine ⟨List.replicate k (.char '\\') ++ .char '[' :: pieces, j, ?_, fun rest hr => ?_⟩
    · rw [piecesFrom_open htag, halone]
      simp
    · rw [List.cons_append, piecesFrom_open (tagAt_append_eq_none htag hr), hall rest hr]
      simp
  | case5 k c cs hbackslash hopen ih =>
    obtain ⟨pieces, j, halone, hall⟩ := ih
    have hc : c ≠ '\\' := hbackslash
    have hc' : c ≠ '[' := hopen
    refine ⟨List.replicate k (.char '\\') ++ .char c :: pieces, j, ?_, fun rest hr => ?_⟩
    · rw [piecesFrom_char hc hc', halone]
      simp
    · rw [List.cons_append, piecesFrom_char hc hc', hall rest hr]
      simp

theorem piecesFrom_replicate (k n : Nat) (cs : List Char) :
    piecesFrom k (List.replicate n '\\' ++ cs) = piecesFrom (k + n) cs := by
  induction n generalizing k with
  | zero => rfl
  | succ n ih =>
    rw [List.replicate_succ, List.cons_append, piecesFrom, ih]
    congr 1
    omega

/-! ## Inert texts -/

/-- Is a part shown as it is? -/
def Piece.IsInert : Piece → Prop
  | .char _ => True
  | .tag backslashes _ => backslashes % 2 = 1

/-- **Does a text hold no tags but escaped ones?** -/
def IsInert (cs : List Char) : Prop := ∀ piece ∈ piecesOf cs, piece.IsInert

theorem isInert_of_mem_replicate {piece : Piece} (h : piece ∈ List.replicate k (.char c)) : piece.IsInert := by
  rw [List.eq_of_mem_replicate h]
  trivial

/-- Backslashes in front of a text do no harm if nothing opens in it. -/
theorem isInert_piecesFrom (k : Nat) (h : '[' ∉ cs) : ∀ piece ∈ piecesFrom k cs, piece.IsInert := by
  induction cs generalizing k with
  | nil =>
    rw [piecesFrom]
    exact fun piece hp => isInert_of_mem_replicate hp
  | cons c cs ih =>
    rw [List.mem_cons, not_or] at h
    by_cases hc : c = '\\'
    · rw [hc, piecesFrom]
      exact ih (k + 1) h.2
    · rw [piecesFrom_char hc (Ne.symm h.1)]
      intro piece hp
      rcases List.mem_append.1 hp with hp | hp
      · exact isInert_of_mem_replicate hp
      · rcases List.mem_cons.1 hp with rfl | hp
        · trivial
        · exact ih 0 h.2 piece hp

theorem isInert_of_not_mem (h : '[' ∉ cs) : IsInert cs := isInert_piecesFrom 0 h

theorem closesNothing_of_not_mem (h : ']' ∉ cs) : ClosesNothing cs := fun hf => h (List.mem_of_find?_eq_some hf)

theorem IsInert.cons (h : IsInert cs) (hc : c ≠ '\\') (hc' : c ≠ '[') : IsInert (c :: cs) := by
  unfold IsInert piecesOf
  rw [piecesFrom_char hc hc']
  intro piece hp
  rcases List.mem_cons.1 hp with rfl | hp
  · trivial
  · exact h piece hp

theorem IsInert.append_left {word : List Char} (h : IsInert cs) (hw : '\\' ∉ word) (hw' : '[' ∉ word) :
    IsInert (word ++ cs) := by
  induction word with
  | nil => exact h
  | cons c word ih =>
    rw [List.mem_cons, not_or] at hw hw'
    exact (ih hw.2 hw'.2).cons (Ne.symm hw.1) (Ne.symm hw'.1)

theorem IsInert.append (h : IsInert cs) (hopen : '[' ∉ rest) (hclose : ']' ∉ rest) : IsInert (cs ++ rest) := by
  obtain ⟨pieces, j, halone, hall⟩ := exists_piecesFrom_append 0 cs
  unfold IsInert piecesOf at h ⊢
  rw [hall rest (closesNothing_of_not_mem hclose)]
  rw [halone] at h
  intro piece hp
  rcases List.mem_append.1 hp with hp | hp
  · exact h piece (List.mem_append_left _ hp)
  · exact isInert_piecesFrom j hopen piece hp

/-! ## Escaped texts -/

/-- The characters of a text behind backslashes, with its tags escaped. -/
def escapedFrom (k : Nat) (cs : List Char) : List Char := (piecesFrom k cs).flatMap escapePiece

theorem flatMap_replicate_char (k : Nat) (c : Char) :
    (List.replicate k (Piece.char c)).flatMap escapePiece = List.replicate k c := by
  induction k with
  | zero => rfl
  | succ k ih =>
    rw [List.replicate_succ, List.flatMap_cons, ih, List.replicate_succ, escapePiece, List.singleton_append]

theorem escapedFrom_nil (k : Nat) : escapedFrom k [] = List.replicate k '\\' := by
  rw [escapedFrom, piecesFrom, flatMap_replicate_char]

theorem escapedFrom_backslash (k : Nat) (cs : List Char) : escapedFrom k ('\\' :: cs) = escapedFrom (k + 1) cs := by
  rw [escapedFrom, piecesFrom]
  rfl

theorem escapedFrom_tag (h : IsTag content) : escapedFrom k ('[' :: (content ++ ']' :: rest)) =
    List.replicate (2 * k + 1) '\\' ++ '[' :: (content ++ ']' :: escapedFrom 0 rest) := by
  rw [escapedFrom, piecesFrom_tag h, List.flatMap_cons, escapePiece]
  simp [escapedFrom]

theorem escapedFrom_open (h : tagAt cs = none) :
    escapedFrom k ('[' :: cs) = List.replicate k '\\' ++ '[' :: escapedFrom 0 cs := by
  rw [escapedFrom, piecesFrom_open h, List.flatMap_append, flatMap_replicate_char, List.flatMap_cons, escapePiece]
  rfl

theorem escapedFrom_char (h : c ≠ '\\') (h' : c ≠ '[') :
    escapedFrom k (c :: cs) = List.replicate k '\\' ++ c :: escapedFrom 0 cs := by
  rw [escapedFrom, piecesFrom_char h h', List.flatMap_append, flatMap_replicate_char, List.flatMap_cons, escapePiece]
  rfl

/-- Escaping keeps the brackets. -/
theorem find?_escapedFrom (k : Nat) (cs : List Char) : (escapedFrom k cs).find? isBracket = cs.find? isBracket := by
  have hskip : ∀ (n : Nat) (cs : List Char),
      (List.replicate n '\\' ++ cs).find? isBracket = cs.find? isBracket := by
    intro n cs
    rw [List.find?_append, List.find?_eq_none.2, Option.none_or]
    intro c hc
    rw [List.eq_of_mem_replicate hc]
    decide
  induction k, cs using piecesFrom.induct with
  | case1 k => simpa [escapedFrom_nil] using hskip k []
  | case2 k cs ih =>
    rw [escapedFrom_backslash, ih]
    rfl
  | case3 k cs content htag ih =>
    obtain ⟨hcontent, after, rfl⟩ := tagAt_eq_some_iff.1 htag
    rw [escapedFrom_tag hcontent, hskip]
    rfl
  | case4 k cs htag ih =>
    rw [escapedFrom_open htag, hskip]
    rfl
  | case5 k c cs hbackslash hopen ih =>
    rw [escapedFrom_char hbackslash hopen, hskip, List.find?_cons, List.find?_cons, ih]

/-- Escaping puts no character in front by which a tag begins. -/
theorem startsTag_of_escapedFrom (k : Nat) (cs : List Char) (h : (escapedFrom k cs).head?.any startsTag = true) :
    k = 0 ∧ cs.head?.any startsTag = true := by
  have hskip : ∀ (n : Nat) (cs : List Char), (List.replicate n '\\' ++ cs).head?.any startsTag = true →
      n = 0 ∧ cs.head?.any startsTag = true := by
    intro n cs h
    cases n with
    | zero => exact ⟨rfl, h⟩
    | succ n => cases h
  induction k, cs using piecesFrom.induct with
  | case1 k =>
    rw [escapedFrom_nil] at h
    exact hskip k [] (by simpa using h)
  | case2 k cs ih =>
    rw [escapedFrom_backslash] at h
    cases (ih h).1
  | case3 k cs content htag ih =>
    obtain ⟨hcontent, after, rfl⟩ := tagAt_eq_some_iff.1 htag
    rw [escapedFrom_tag hcontent] at h
    cases (hskip _ _ h).1
  | case4 k cs htag ih =>
    rw [escapedFrom_open htag] at h
    cases (hskip _ _ h).2
  | case5 k c cs hbackslash hopen ih =>
    rw [escapedFrom_char hbackslash hopen] at h
    exact hskip k (c :: escapedFrom 0 cs) h

/-- Escaping makes no tags. -/
theorem tagAt_escapedFrom (h : tagAt cs = none) : tagAt (escapedFrom 0 cs) = none := by
  rw [tagAt_eq_none_iff] at h ⊢
  cases hstarts : (escapedFrom 0 cs).head?.any startsTag with
  | false => exact .inl rfl
  | true =>
    refine .inr (h.elim (fun hno => ?_) fun hcloses => ?_)
    · rw [(startsTag_of_escapedFrom 0 cs hstarts).2] at hno
      cases hno
    · unfold ClosesNothing at hcloses ⊢
      rwa [find?_escapedFrom]

theorem isInert_escapedFrom (k : Nat) (cs : List Char) : IsInert (escapedFrom k cs) := by
  have hpieces : ∀ (n : Nat) (cs : List Char), piecesOf (List.replicate n '\\' ++ cs) = piecesFrom n cs := by
    intro n cs
    rw [piecesOf, piecesFrom_replicate, Nat.zero_add]
  have hcons : ∀ {n : Nat} {piece : Piece} {pieces : List Piece}, piece.IsInert → (∀ piece ∈ pieces, piece.IsInert) →
      ∀ piece' ∈ List.replicate n (.char '\\') ++ piece :: pieces, piece'.IsInert := by
    intro n piece pieces hp hall piece' hp'
    rcases List.mem_append.1 hp' with hp' | hp'
    · exact isInert_of_mem_replicate hp'
    · rcases List.mem_cons.1 hp' with rfl | hp'
      · exact hp
      · exact hall piece' hp'
  induction k, cs using piecesFrom.induct with
  | case1 k =>
    rw [escapedFrom_nil]
    exact isInert_of_not_mem (by simp)
  | case2 k cs ih => rwa [escapedFrom_backslash]
  | case3 k cs content htag ih =>
    obtain ⟨hcontent, after, rfl⟩ := tagAt_eq_some_iff.1 htag
    have hdrop : (content ++ ']' :: after).drop (content.length + 1) = after := by simp
    rw [hdrop] at ih
    have hodd : (Piece.tag (2 * k + 1) content).IsInert := by
      show (2 * k + 1) % 2 = 1
      omega
    unfold IsInert
    rw [escapedFrom_tag hcontent, hpieces, piecesFrom_tag hcontent]
    exact hcons (n := 0) hodd ih
  | case4 k cs htag ih =>
    unfold IsInert
    rw [escapedFrom_open htag, hpieces, piecesFrom_open (tagAt_escapedFrom htag)]
    exact hcons trivial ih
  | case5 k c cs hbackslash hopen ih =>
    unfold IsInert
    rw [escapedFrom_char hbackslash hopen, hpieces, piecesFrom_char hbackslash hopen]
    exact hcons trivial ih

/-- **An escaped text is inert.** -/
theorem isInert_escape (text : String) : IsInert (escape text).toList := by
  have hinert : IsInert (escapedFrom 0 text.toList) := isInert_escapedFrom 0 text.toList
  unfold escape
  dsimp only
  rw [String.toList_ofList]
  split
  · exact hinert.append (by simp) (by simp)
  · exact hinert

/-! ## Styles -/

/-- **Does markup close only what is open?** Its text is there, whatever stands in front of it. -/
def Balanced (styles : List String) (pieces : List Piece) : Prop :=
  ∀ position run, ∃ cs, plainPieces position styles run pieces = .ok cs

theorem Balanced.char (h : Balanced styles pieces) (c : Char) : Balanced styles (.char c :: pieces) :=
  fun position run => h (position + 1) (c :: run)

theorem Balanced.escapedTag (h : Balanced styles pieces) (hk : k % 2 = 1) :
    Balanced styles (.tag k content :: pieces) := by
  intro position run
  obtain ⟨after, hafter⟩ := h (position + k + content.length + 2) []
  rw [plainPieces, if_pos hk, hafter]
  exact ⟨_, rfl⟩

theorem Balanced.tag {styles' : List String} (h : Balanced styles' pieces) (hk : k % 2 ≠ 1)
    (happly : ∀ position, applyTag position content styles = .ok styles') :
    Balanced styles (.tag k content :: pieces) := by
  intro position run
  obtain ⟨after, hafter⟩ := h (position + k + content.length + 2) []
  rw [plainPieces, if_neg hk, happly, ok_bind, hafter]
  exact ⟨_, rfl⟩

theorem Balanced.append {before : List Piece} (h : Balanced styles pieces) (hb : ∀ piece ∈ before, piece.IsInert) :
    Balanced styles (before ++ pieces) := by
  induction before with
  | nil => exact h
  | cons piece before ih =>
    have hrest := ih fun piece' hp => hb piece' (List.mem_cons_of_mem _ hp)
    cases piece with
    | char c => exact hrest.char c
    | tag k content => exact hrest.escapedTag (hb _ List.mem_cons_self)

theorem balanced_nil (styles : List String) : Balanced styles [] := fun _ _ => ⟨_, rfl⟩

theorem IsInert.balanced (h : IsInert cs) (styles : List String) : Balanced styles (piecesOf cs) := by
  simpa using (balanced_nil styles).append h

/-- **Can the characters name a style as they are?** -/
structure IsStyle (style : List Char) : Prop where
  isTag : IsTag style
  opens : style.head? ≠ some '/'
  name : tagName style = style
  trim : trimmed style = style

theorem IsStyle.applyTag_open {style : List Char} (h : IsStyle style) (position : Nat) (styles : List String) :
    applyTag position style styles = .ok (styleOf style :: styles) := by
  unfold applyTag
  rw [h.name]
  split
  next rest => exact absurd rfl h.opens
  · rfl

theorem IsStyle.applyTag_close {style : List Char} (h : IsStyle style) (position : Nat) (styles : List String) :
    applyTag position ('/' :: style) (styleOf style :: styles) = .ok styles := by
  have hname : tagName ('/' :: style) = '/' :: style := by
    show '/' :: tagName style = '/' :: style
    rw [h.name]
  have hne : style ≠ [] := by
    rintro rfl
    cases h.isTag.starts
  have htrim := h.trim
  obtain ⟨c, rest, rfl⟩ := List.exists_cons_of_ne_nil hne
  unfold applyTag
  rw [hname]
  simp [htrim, closeStyle]

/-- A text in a style, with more behind it. -/
def styled (style text more : List Char) : List Char :=
  '[' :: (style ++ ']' :: (text ++ '[' :: ('/' :: style ++ ']' :: more)))

/-- **An inert text in a style leaves the markup right.** -/
theorem balanced_styled {style text : List Char} (hs : IsStyle style) (ht : IsInert text) (hm : IsInert more)
    (styles : List String) : Balanced styles (piecesOf (styled style text more)) := by
  have hclose : IsTag ('/' :: style) := by
    refine ⟨rfl, fun c hc => ?_⟩
    rcases List.mem_cons.1 hc with rfl | hc
    · rfl
    · exact hs.isTag.noBracket c hc
  have hopens : ClosesNothing ('[' :: ('/' :: style ++ ']' :: more)) := by
    intro hf
    cases hf
  obtain ⟨pieces, j, halone, hall⟩ := exists_piecesFrom_append 0 text
  have hpieces : ∀ piece ∈ pieces, piece.IsInert := by
    intro piece hp
    refine ht piece ?_
    rw [piecesOf, halone]
    exact List.mem_append_left _ hp
  unfold styled piecesOf
  rw [piecesFrom_tag hs.isTag, hall _ hopens, piecesFrom_tag hclose]
  refine .tag (.append ?_ hpieces) (by decide) fun position => hs.applyTag_open position styles
  by_cases hj : j % 2 = 1
  · exact (hm.balanced _).escapedTag hj
  · exact (hm.balanced _).tag hj fun position => hs.applyTag_close position styles

theorem exists_plain_of_balanced {text : String} (h : Balanced [] (piecesOf text.toList)) :
    ∃ s, plain text = .ok s := by
  obtain ⟨cs, hcs⟩ := h 0 []
  exact ⟨String.ofList cs, by rw [plain, hcs]; rfl⟩

/-! ## How a text begins -/

theorem dropBackslashes_cons (h : c ≠ '\\') (cs : List Char) : dropBackslashes (c :: cs) = c :: dropBackslashes cs := by
  rw [dropBackslashes]
  exact fun _ hc _ => h hc

/-- What is shown first is the character that comes first. -/
theorem head_of_plainPieces (hc : c ≠ '\\') : ∀ (pieces : List Piece) (position : Nat) (styles : List String)
    (run : List Char) {out : List Char}, plainPieces position styles (run ++ [c]) pieces = .ok out →
      ∃ rest, out = c :: rest
  | [], position, styles, run, out, h => by
    cases h
    rw [List.reverse_append, List.reverse_singleton, List.singleton_append, dropBackslashes_cons hc]
    exact ⟨_, rfl⟩
  | .char c' :: pieces, position, styles, run, out, h =>
    head_of_plainPieces hc pieces (position + 1) styles (c' :: run) h
  | .tag k content :: pieces, position, styles, run, out, h => by
    rw [plainPieces, List.reverse_append, List.reverse_singleton, List.singleton_append, dropBackslashes_cons hc] at h
    split at h
    · obtain ⟨after, -, h⟩ := bind_eq_ok_iff.1 h
      cases h
      exact ⟨_, rfl⟩
    · obtain ⟨styles', -, h⟩ := bind_eq_ok_iff.1 h
      obtain ⟨after, -, h⟩ := bind_eq_ok_iff.1 h
      cases h
      exact ⟨_, rfl⟩

/-- A text in a style is shown behind what stands in front of it. -/
theorem head_of_styled {style out : List Char} (hs : IsStyle style) (hc : c ≠ '\\') (hc' : c ≠ '[')
    (h : plainPieces position styles run (piecesOf (styled style (c :: cs) more)) = .ok out) :
    ∃ rest, out = dropBackslashes run.reverse ++ c :: rest := by
  unfold styled piecesOf at h
  rw [piecesFrom_tag hs.isTag, List.cons_append, piecesFrom_char hc hc', plainPieces, if_neg (by decide),
    hs.applyTag_open, ok_bind] at h
  obtain ⟨after, hafter, h⟩ := bind_eq_ok_iff.1 h
  obtain ⟨rest, rfl⟩ := head_of_plainPieces hc _ _ _ [] hafter
  cases h
  exact ⟨rest, by simp⟩

/-- A character that comes first is shown first. -/
theorem head_of_plain {text out : String} (htext : text.toList = c :: cs) (hc : c ≠ '\\') (hc' : c ≠ '[')
    (h : plain text = .ok out) : ∃ rest, out.toList = c :: rest := by
  obtain ⟨shown, hshown, rfl⟩ := map_eq_ok_iff.1 h
  rw [htext, piecesOf, piecesFrom_char hc hc'] at hshown
  obtain ⟨rest, rfl⟩ := head_of_plainPieces hc _ _ _ [] hshown
  exact ⟨rest, by simp⟩

end FixtureCheck.Report
