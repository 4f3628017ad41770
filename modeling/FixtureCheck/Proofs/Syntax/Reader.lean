import FixtureCheck.GraphQL.Syntax.Parser
import FixtureCheck.Proofs.Except
import FixtureCheck.Proofs.Syntax.Name

/-!
# What readers make of named tokens

The names among the tokens of a text are names of the grammar (`isNamed_tokenize`). Readers only take tokens from the
front of the stream, so this holds wherever they come to, and `Reads` carries a property of their results along.
-/

namespace FixtureCheck.GraphQL

/-! ## Named tokens -/

/-- Is a token that counts as a name one of the grammar? -/
def Token.IsNamed (t : Token) : Prop := t.kind = .name → IsName t.value

/-- Are the names among tokens names of the grammar? -/
def TokenStream.IsNamed : TokenStream → Prop
  | done last => last.IsNamed
  | fault _ => True
  | more t rest => t.IsNamed ∧ rest.IsNamed

namespace Lexer

/-- No number counts as a name. -/
theorem kind_of_number {cs value after : List Char} {kind : TokenKind} (h : number cs = .ok (kind, value, after)) :
    kind ≠ .name := by
  have hdigits : ∀ noPoint : Bool, (if noPoint then TokenKind.int else .float) ≠ .name := by decide
  unfold number at h
  simp only at h
  obtain ⟨whole, -, hwhole⟩ := bind_eq_ok_iff.1 h
  obtain ⟨fraction, -, hfraction⟩ := bind_eq_ok_iff.1 hwhole
  obtain ⟨exponent, -, hexponent⟩ := bind_eq_ok_iff.1 hfraction
  split at hexponent
  · split at hexponent
    · cases hexponent
    · cases hexponent
      exact hdigits _
  · cases hexponent
    exact hdigits _

theorem isName_of_token {c : Char} {rest value after : List Char} (h : token c rest = .ok (.name, value, after)) :
    IsName (String.ofList value) := by
  unfold token at h
  split at h
  · split at h
    · obtain ⟨lines, -, hlines⟩ := bind_eq_ok_iff.1 h
      cases hlines
    · obtain ⟨body, -, hbody⟩ := bind_eq_ok_iff.1 h
      cases hbody
  · split at h
    · cases h
    · split at h
      · exact absurd rfl (kind_of_number h)
      · split at h
        · rename_i hstart
          cases h
          exact isName_ofList hstart (fun c hc => List.all_eq_true.1 List.all_takeWhile c hc)
        · split at h <;> cases h

theorem isNamed_of_token {c : Char} {rest value after : List Char} {kind : TokenKind} {offset : Nat}
    (h : token c rest = .ok (kind, value, after)) : Token.IsNamed ⟨kind, String.ofList value, offset⟩ := by
  rintro rfl
  exact isName_of_token h

theorem isNamed_stream (source : List Char) (total : Nat) (cs : List Char) : (stream source total cs).IsNamed := by
  fun_induction stream source total cs with
  | case1 => exact fun h => by cases h
  | case2 => trivial
  | case3 cs c rest hcs kind value after htoken t hlt ih => exact ⟨isNamed_of_token htoken, ih⟩
  | case4 cs c rest hcs kind value after htoken t => exact isNamed_of_token htoken

end Lexer

/-- **The names among the tokens of a text are names of the grammar.** -/
theorem isNamed_tokenize (source : List Char) : (tokenize source).IsNamed := Lexer.isNamed_stream source _ source

/-! ## Readers -/

namespace Parser

variable {α β : Type}

/-- **Does a reader on named tokens come to results with a property, and to named tokens?** -/
structure Reads (reader : Reader α) (property : α → Prop) : Prop where
  run : ∀ {context : Context} {stream : TokenStream} {a : α} {stream' : TokenStream}, stream.IsNamed →
    reader context stream = .ok (a, stream') → property a ∧ stream'.IsNamed

/-- Does a reader on named tokens come to named tokens? -/
abbrev Keeps (reader : Reader α) : Prop := Reads reader fun _ => True

namespace Reads

variable {reader : Reader α} {next : α → Reader β} {P : α → Prop} {Q : β → Prop}

theorem keeps (h : Reads reader P) : Keeps reader := ⟨fun hs hr => ⟨trivial, (h.run hs hr).2⟩⟩

theorem pure {a : α} (h : P a) : Reads (Pure.pure a) P := by
  refine ⟨fun hs hr => ?_⟩
  cases hr
  exact ⟨h, hs⟩

theorem bind (h : Reads reader P) (hn : ∀ a, P a → Reads (next a) Q) : Reads (reader >>= next) Q := by
  refine ⟨fun hs hr => ?_⟩
  obtain ⟨⟨a, between⟩, hfirst, hrest⟩ := bind_eq_ok_iff.1 hr
  obtain ⟨ha, hbetween⟩ := h.run hs hfirst
  exact (hn a ha).run hbetween hrest

theorem map {f : α → β} (h : Reads reader P) (hf : ∀ a, P a → Q (f a)) : Reads (f <$> reader) Q := by
  rw [map_eq_pure_bind]
  exact h.bind fun a ha => .pure (hf a ha)

theorem ite {c : Prop} [Decidable c] {other : Reader α} (h : c → Reads reader P) (ho : ¬c → Reads other P) :
    Reads (if c then reader else other) P := by
  split
  · exact h ‹_›
  · exact ho ‹_›

/-- Two ways to the same rest. -/
theorem ite_bind {c : Prop} [Decidable c] {other : Reader α} (h : Reads reader P) (ho : Reads other P)
    (hn : ∀ a, P a → Reads (next a) Q) : Reads (if c then reader >>= next else other >>= next) Q :=
  ite (fun _ => h.bind hn) fun _ => ho.bind hn

end Reads

theorem Keeps.bind {reader : Reader α} {next : α → Reader β} {Q : β → Prop} (h : Keeps reader)
    (hn : ∀ a, Reads (next a) Q) : Reads (reader >>= next) Q :=
  Reads.bind h fun a _ => hn a

theorem Keeps.map {reader : Reader α} (h : Keeps reader) (f : α → β) : Keeps (f <$> reader) :=
  Reads.map h fun _ _ => trivial

/-! ## Tokens -/

theorem reads_read {P : Context → Prop} (h : ∀ context, P context) : Reads read P := by
  refine ⟨fun hs hr => ?_⟩
  cases hr
  exact ⟨h _, hs⟩

theorem reads_throw (P : α → Prop) (fault : Fault) : Reads (throw fault) P := ⟨fun _ hr => by cases hr⟩

theorem reads_peek : Reads peek Token.IsNamed := by
  refine ⟨fun {context stream _ _} hs hr => ?_⟩
  cases stream with
  | done t => cases hr; exact ⟨hs, hs⟩
  | fault f => cases hr
  | more t rest => cases hr; exact ⟨hs.1, hs⟩

theorem reads_lookahead : Keeps lookahead := by
  refine ⟨fun {context stream _ _} hs hr => ⟨trivial, ?_⟩⟩
  cases stream with
  | done t => cases hr; exact hs
  | fault f => cases hr
  | more t rest => cases rest <;> cases hr <;> exact hs

theorem reads_advance : Reads advance Token.IsNamed := by
  refine ⟨fun {context stream _ _} hs hr => ?_⟩
  cases stream with
  | done t => cases hr; exact ⟨hs, hs⟩
  | fault f => cases hr
  | more t rest =>
    cases rest with
    | done t' => cases hr; exact hs
    | fault f => cases hr
    | more t' rest' => cases hr; exact hs

theorem reads_fail (P : α → Prop) (offset : Nat) (description : String) : Reads (fail offset description) P :=
  (reads_read fun _ => trivial).bind fun _ (_ : True) => reads_throw P _

theorem reads_unexpected (P : α → Prop) (t : Token) : Reads (unexpected t) P := reads_fail P _ _

theorem reads_atPunctuator (text : String) : Keeps (atPunctuator text) := reads_peek.bind fun _ _ => .pure trivial

/-- The token that is taken is the next one. -/
theorem eq_of_peek_advance {context : Context} {stream between stream' : TokenStream} {t t' : Token}
    (hp : peek context stream = .ok (t, between)) (ha : advance context between = .ok (t', stream')) : t' = t := by
  cases stream with
  | done last =>
    cases hp
    cases ha
    rfl
  | fault f => cases hp
  | more first rest =>
    cases hp
    cases rest <;> cases ha <;> rfl

theorem reads_expectKind (kind : TokenKind) : Reads (expectKind kind) fun t => t.kind = kind ∧ t.IsNamed := by
  refine ⟨fun {context stream t' stream'} hs hr => ?_⟩
  obtain ⟨⟨t, between⟩, hp, hrest⟩ := bind_eq_ok_iff.1 hr
  have hbetween := (reads_peek.run hs hp).2
  by_cases hk : t.kind = kind
  · have ha : advance context between = .ok (t', stream') := by simpa [hk] using hrest
    obtain ⟨hn, hs'⟩ := reads_advance.run hbetween ha
    rw [eq_of_peek_advance hp ha] at hn ⊢
    exact ⟨⟨hk, hn⟩, hs'⟩
  · have hf : fail t.offset s!"Expected {kind.describe}, found {t.describe}." context between = .ok (t', stream') := by
      simpa [hk] using hrest
    exact (reads_fail (fun t => t.kind = kind ∧ t.IsNamed) _ _).run hbetween hf

theorem reads_expect (text : String) : Keeps (expect text) :=
  (reads_expectKind _).keeps.bind fun _ => .pure trivial

theorem reads_skip (text : String) : Keeps (skip text) := by
  refine (reads_atPunctuator text).bind fun there => .ite (fun _ => ?_) fun _ => .pure trivial
  exact reads_advance.keeps.bind fun _ => .pure trivial

theorem reads_name : Reads name IsName := (reads_expectKind .name).bind fun _ ht => .pure (ht.2 ht.1)

theorem reads_atKeyword (word : String) : Keeps (atKeyword word) := reads_peek.keeps.bind fun _ => .pure trivial

theorem reads_keyword (word : String) : Keeps (keyword word) := by
  refine (reads_atKeyword word).bind fun there => .ite (fun _ => ?_) fun _ => ?_
  · exact reads_advance.keeps.bind fun _ => .pure trivial
  · exact reads_peek.keeps.bind fun t => reads_fail _ _ _

theorem reads_skipKeyword (word : String) : Keeps (skipKeyword word) := by
  refine (reads_atKeyword word).bind fun there => .ite (fun _ => ?_) fun _ => .pure trivial
  exact reads_advance.keeps.bind fun _ => .pure trivial

/-! ## Repetition -/

section

variable {item : Reader α} {P : α → Prop}

theorem reads_itemsUntil (h : Reads item P) (close : String) :
    ∀ n, Reads (itemsUntil item close n) fun as => ∀ a ∈ as, P a
  | 0 => .pure (by simp)
  | n + 1 => by
    refine (reads_skip close).bind fun closed => .ite (fun _ => .pure (by simp)) fun _ => ?_
    refine h.bind fun a ha => (reads_itemsUntil h close n).bind fun rest hrest => .pure ?_
    exact List.forall_mem_cons.2 ⟨ha, hrest⟩

theorem reads_anyBetween (h : Reads item P) (opening close : String) :
    Reads (anyBetween opening item close) fun as => ∀ a ∈ as, P a :=
  (reads_expect opening).bind fun _ => (reads_read fun _ => trivial).bind fun context (_ : True) =>
    reads_itemsUntil h close context.bound

theorem reads_someBetween (h : Reads item P) (opening close : String) :
    Reads (someBetween opening item close) fun as => ∀ a ∈ as, P a := by
  refine (reads_expect opening).bind fun _ => h.bind fun a ha => ?_
  refine (reads_read fun _ => trivial).bind fun context (_ : True) => ?_
  exact (reads_itemsUntil h close context.bound).bind fun rest hrest => .pure (List.forall_mem_cons.2 ⟨ha, hrest⟩)

theorem reads_optionalBetween (h : Reads item P) (opening close : String) :
    Reads (optionalBetween opening item close) fun as => ∀ a ∈ as, P a :=
  (reads_atPunctuator opening).bind fun _ =>
    .ite (fun _ => reads_someBetween h opening close) fun _ => .pure (by simp)

theorem reads_more (h : Reads item P) (delimiter : String) :
    ∀ n, Reads (delimited.more delimiter item n) fun as => ∀ a ∈ as, P a
  | 0 => .pure (by simp)
  | n + 1 => by
    refine (reads_skip delimiter).bind fun delimits => .ite (fun _ => ?_) fun _ => .pure (by simp)
    refine h.bind fun a ha => (reads_more h delimiter n).bind fun rest hrest => .pure ?_
    exact List.forall_mem_cons.2 ⟨ha, hrest⟩

theorem reads_delimited (h : Reads item P) (delimiter : String) :
    Reads (delimited delimiter item) fun as => ∀ a ∈ as, P a := by
  refine (reads_skip delimiter).bind fun _ => h.bind fun a ha => ?_
  refine (reads_read fun _ => trivial).bind fun context (_ : True) => ?_
  exact (reads_more h delimiter context.bound).bind fun rest hrest => .pure (List.forall_mem_cons.2 ⟨ha, hrest⟩)

end

end Parser

end FixtureCheck.GraphQL
