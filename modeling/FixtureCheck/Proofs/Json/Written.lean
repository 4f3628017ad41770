import FixtureCheck.Proofs.Json.Number
import FixtureCheck.Proofs.Json.Proper
import FixtureCheck.Proofs.Json.Text

/-!
# Values are read as they were written

A layout may add blanks between the parts of a value (`Layout.IsBlank`). Each reader has a lemma that says what it reads
when its parts are read (`value_arr`, `elements_more`, …), and each printer one that says that its text is read if those
of its parts are (`elements_render`, `members_render`); so every proper value is read from its text (`IsProper.isRead`),
whatever comes behind it, and is what its text is read as (`IsProper.parse_render`).
-/

namespace FixtureCheck.Json

variable {c : Char} {cs rest after : List Char} {v : Json} {items : List Json} {entries : List (String × Json)}

/-! ## What the readers read -/

theorem value_str {s : List Char} (h : Reads (stringBody (cs.length + 1) cs) s rest) :
    Reads (value ('"' :: cs)) (.str (String.ofList s)) rest := by
  obtain ⟨hlt, h⟩ := h
  refine ⟨by rw [List.length_cons]; omega, ?_⟩
  rw [value, h]

theorem value_empty_arr : Reads (value ('[' :: ']' :: rest)) (.arr []) rest := by
  refine ⟨by rw [List.length_cons, List.length_cons]; omega, ?_⟩
  rw [value]
  rfl

theorem value_empty_obj : Reads (value ('{' :: '}' :: rest)) (.obj []) rest := by
  refine ⟨by rw [List.length_cons, List.length_cons]; omega, ?_⟩
  rw [value]
  rfl

theorem value_arr (hne : ∀ c ∈ (skipBlanks cs).head?, c ≠ ']') (h : Reads (elements (skipBlanks cs)) items rest) :
    Reads (value ('[' :: cs)) (.arr items) rest := by
  obtain ⟨hlt, h⟩ := h
  refine ⟨by have := skipBlanks_length_le cs; simp; omega, ?_⟩
  rw [value]
  split
  next rest' hskip => exact absurd rfl (hne ']' (by rw [hskip]; rfl))
  next => rw [h]

theorem value_obj (hne : ∀ c ∈ (skipBlanks cs).head?, c ≠ '}') (h : Reads (members (skipBlanks cs)) entries rest) :
    Reads (value ('{' :: cs)) (ofEntries entries) rest := by
  obtain ⟨hlt, h⟩ := h
  refine ⟨by have := skipBlanks_length_le cs; simp; omega, ?_⟩
  rw [value]
  split
  next rest' hskip => exact absurd rfl (hne '}' (by rw [hskip]; rfl))
  next => rw [h]

theorem elements_last (h : Reads (value cs) v rest) (hclose : skipBlanks rest = ']' :: after) :
    Reads (elements cs) [v] after := by
  obtain ⟨hlt, h⟩ := h
  have hle := skipBlanks_length_le rest
  rw [hclose, List.length_cons] at hle
  refine ⟨by omega, ?_⟩
  rw [elements, h]
  dsimp only
  split
  next rest' hskip =>
    obtain rfl : rest' = after := by simpa [hskip] using hclose
    rfl
  next rest' hskip => simp [hskip] at hclose
  next hskip _ => exact absurd hclose (hskip after)

theorem elements_more (h : Reads (value cs) v rest) (hcomma : skipBlanks rest = ',' :: after)
    {rest' : List Char} (hitems : Reads (elements (skipBlanks after)) items rest') :
    Reads (elements cs) (v :: items) rest' := by
  obtain ⟨hlt, h⟩ := h
  obtain ⟨hlt', hitems⟩ := hitems
  have hle := skipBlanks_length_le rest
  have hle' := skipBlanks_length_le after
  rw [hcomma, List.length_cons] at hle
  refine ⟨by omega, ?_⟩
  rw [elements, h]
  dsimp only
  split
  next rest' hskip => simp [hskip] at hcomma
  next after' hskip =>
    obtain rfl : after' = after := by simpa [hskip] using hcomma
    rw [hitems]
  next hskip => exact absurd hcomma (hskip after)

/-- **Is an entry read?** Its key, behind the opening quote, its colon and its value. -/
def ReadsEntry (cs : List Char) (entry : String × Json) (rest : List Char) : Prop :=
  ∃ key afterKey afterColon, String.ofList key = entry.1 ∧ Reads (stringBody (cs.length + 1) cs) key afterKey ∧
    skipBlanks afterKey = ':' :: afterColon ∧ Reads (value (skipBlanks afterColon)) entry.2 rest

theorem members_last {entry : String × Json} (h : ReadsEntry cs entry rest) (hclose : skipBlanks rest = '}' :: after) :
    Reads (members ('"' :: cs)) [entry] after := by
  obtain ⟨key, afterKey, afterColon, hname, ⟨hlt, hkey⟩, hcolon, hlt', hv⟩ := h
  have hle := skipBlanks_length_le afterKey
  have hle' := skipBlanks_length_le afterColon
  have hle'' := skipBlanks_length_le rest
  rw [hcolon, List.length_cons] at hle
  rw [hclose, List.length_cons] at hle''
  refine ⟨by rw [List.length_cons]; omega, ?_⟩
  rw [members, hkey]
  dsimp only
  split
  next afterColon' hskip =>
    obtain rfl : afterColon' = afterColon := by simpa [hskip] using hcolon
    rw [hv]
    dsimp only
    split
    next after' hskip' =>
      obtain rfl : after' = after := by simpa [hskip'] using hclose
      rw [hname]
    next hskip' => simp [hskip'] at hclose
    next hskip' _ => exact absurd hclose (hskip' after)
  next hskip => exact absurd hcolon (hskip afterColon)

theorem members_more {entry : String × Json} (h : ReadsEntry cs entry rest) (hcomma : skipBlanks rest = ',' :: after)
    {rest' : List Char} (hentries : Reads (members (skipBlanks after)) entries rest') :
    Reads (members ('"' :: cs)) (entry :: entries) rest' := by
  obtain ⟨key, afterKey, afterColon, hname, ⟨hlt, hkey⟩, hcolon, hlt', hv⟩ := h
  obtain ⟨hlt'', hentries⟩ := hentries
  have hle := skipBlanks_length_le afterKey
  have hle' := skipBlanks_length_le afterColon
  have hle'' := skipBlanks_length_le rest
  have hle₃ := skipBlanks_length_le after
  rw [hcolon, List.length_cons] at hle
  rw [hcomma, List.length_cons] at hle''
  refine ⟨by rw [List.length_cons]; omega, ?_⟩
  rw [members, hkey]
  dsimp only
  split
  next afterColon' hskip =>
    obtain rfl : afterColon' = afterColon := by simpa [hskip] using hcolon
    rw [hv]
    dsimp only
    split
    next hskip' => simp [hskip'] at hcomma
    next after' hskip' =>
      obtain rfl : after' = after := by simpa [hskip'] using hcomma
      rw [hentries]
      dsimp only
      rw [hname]
    next hskip' => exact absurd hcomma (hskip' after)
  next hskip => exact absurd hcolon (hskip afterColon)

/-! ## Blanks -/

theorem skipBlanks_append {blanks : List Char} (h : ∀ c ∈ blanks, isBlank c = true) (cs : List Char) :
    skipBlanks (blanks ++ cs) = skipBlanks cs := by
  unfold skipBlanks
  exact List.dropWhile_append_of_pos h

/-- **Can a value begin with these characters?** -/
def StartsValue (cs : List Char) : Prop :=
  ∃ c tail, cs = c :: tail ∧ isBlank c = false ∧ c ≠ ']' ∧ c ≠ '}' ∧ c ≠ '\uFEFF'

theorem StartsValue.skipBlanks (h : StartsValue cs) : skipBlanks cs = cs := by
  obtain ⟨c, tail, rfl, hc, -⟩ := h
  unfold Json.skipBlanks
  rw [List.dropWhile_cons_of_neg (by simp [hc])]

theorem StartsValue.append (h : StartsValue cs) (rest : List Char) : StartsValue (cs ++ rest) := by
  obtain ⟨c, tail, rfl, hc⟩ := h
  exact ⟨c, tail ++ rest, rfl, hc⟩

theorem endsNumber_cons (h : c = ',' ∨ c = ']' ∨ c = '}' ∨ isBlank c = true) : EndsNumber (c :: cs) := by
  intro c' hc
  obtain rfl : c = c' := by simpa using hc
  simp only [isBlank, Bool.or_eq_true, beq_iff_eq] at h
  rcases h with rfl | rfl | rfl | ((rfl | rfl) | rfl) | rfl <;> decide

theorem endsNumber_append {blanks : List Char} (h : ∀ c ∈ blanks, isBlank c = true) (hcs : EndsNumber cs) :
    EndsNumber (blanks ++ cs) := by
  cases blanks with
  | nil => exact hcs
  | cons c blanks => exact endsNumber_cons (.inr (.inr (.inr (h c List.mem_cons_self))))

/-! ## Numbers among values -/

/-- **Can a number begin with this character?** -/
def startsNumber (c : Char) : Bool := c.isDigit || c == '-' || c == 'N' || c == 'I'

theorem ne_of_startsNumber (h : startsNumber c = true) {d : Char} (hd : startsNumber d = false) : c ≠ d := by
  rintro rfl
  rw [h] at hd
  cases hd

theorem head_of_number (h : number cs = some (v, rest)) : ∃ c tail, cs = c :: tail ∧ startsNumber c = true := by
  unfold number at h
  split at h
  · exact ⟨_, _, rfl, rfl⟩
  · exact ⟨_, _, rfl, rfl⟩
  · exact ⟨_, _, rfl, rfl⟩
  · exact ⟨_, _, rfl, rfl⟩
  · unfold unsignedNumber at h
    simp only [Option.bind_eq_bind, Option.bind_eq_some_iff] at h
    obtain ⟨whole, hwhole, -⟩ := h
    unfold wholePart at hwhole
    split at hwhole
    · exact ⟨_, _, rfl, rfl⟩
    · split at hwhole
      next hc => exact ⟨_, _, rfl, by simp [startsNumber, hc]⟩
      · cases hwhole
    · cases hwhole

/-- A value that begins as a number is one. -/
theorem value_number {text : List Char} (h : number (text ++ rest) = some (v, rest))
    (halone : number (text ++ []) = some (v, [])) : StartsValue text ∧ Reads (value (text ++ rest)) v rest := by
  rw [List.append_nil] at halone
  obtain ⟨c, tail, rfl, hc⟩ := head_of_number halone
  have hne : ∀ {d : Char}, startsNumber d = false → c ≠ d := ne_of_startsNumber hc
  constructor
  · refine ⟨c, tail, rfl, ?_, hne (by decide), hne (by decide), hne (by decide)⟩
    unfold isBlank
    simp only [Bool.or_eq_false_iff, beq_eq_false_iff_ne]
    exact ⟨⟨⟨hne (by decide), hne (by decide)⟩, hne (by decide)⟩, hne (by decide)⟩
  · rw [List.cons_append] at h ⊢
    have hlt : rest.length < (c :: (tail ++ rest)).length := by
      rw [List.length_cons, List.length_append]
      omega
    refine ⟨hlt, ?_⟩
    rw [value, h]
    · dsimp only
      rw [dif_pos hlt]
    all_goals
      intro _ hcs
      exact hne (by decide) (List.cons.inj hcs).1

/-! ## Layouts -/

/-- **Does a layout add blanks only?** -/
structure Layout.IsBlank (layout : Layout) : Prop where
  lineBreak : ∀ depth, ∀ c ∈ layout.lineBreak depth, isBlank c = true
  comma : ∃ blanks, (∀ c ∈ blanks, isBlank c = true) ∧ layout.comma = ',' :: blanks
  colon : ∃ blanks, (∀ c ∈ blanks, isBlank c = true) ∧ layout.colon = ':' :: blanks

theorem isBlank_compactLayout : compactLayout.IsBlank where
  lineBreak := by simp [compactLayout]
  comma := ⟨[], by simp, rfl⟩
  colon := ⟨[], by simp, rfl⟩

theorem isBlank_indentedLayout : indentedLayout.IsBlank where
  lineBreak := by
    intro depth c hc
    rcases List.mem_cons.1 hc with rfl | hc
    · rfl
    · rw [List.eq_of_mem_replicate hc]
      rfl
  comma := ⟨[], by simp, rfl⟩
  colon := ⟨[' '], by simp [isBlank], rfl⟩

/-- **Is a value read from its text?** -/
def IsRead (layout : Layout) (v : Json) : Prop :=
  ∀ depth, StartsValue (renderAt layout depth v) ∧
    ∀ rest, EndsNumber rest → Reads (value (renderAt layout depth v ++ rest)) v rest

theorem isRead_number {layout : Layout} {text : List Char} (htext : ∀ depth, renderAt layout depth v = text)
    (h : ∀ rest, EndsNumber rest → number (text ++ rest) = some (v, rest)) : IsRead layout v := by
  intro depth
  have halone : number (text ++ []) = some (v, []) := h [] (by simp [EndsNumber])
  rw [htext depth]
  exact ⟨(value_number halone halone).1, fun rest hrest => (value_number (h rest hrest) halone).2⟩

variable {layout : Layout} {closing : List Char}

/-- The elements of an array are read if each of them is. -/
theorem elements_render (hl : layout.IsBlank) (depth : Nat) (hc : ∀ c ∈ closing, isBlank c = true) (rest : List Char) :
    ∀ (items : List Json) (item : Json), (∀ v ∈ item :: items, IsRead layout v) →
      Reads (elements (renderAt layout depth item ++ (renderItems layout depth items ++ (closing ++ ']' :: rest))))
        (item :: items) rest := by
  intro items
  induction items with
  | nil =>
    intro item h
    have hend : EndsNumber (closing ++ ']' :: rest) := endsNumber_append hc (endsNumber_cons (by decide))
    refine elements_last ((h item List.mem_cons_self depth).2 _ hend) ?_
    rw [renderItems, List.nil_append, skipBlanks_append hc]
    rfl
  | cons item' items ih =>
    intro item h
    obtain ⟨blanks, hblanks, hcomma⟩ := hl.comma
    have hitems : ∀ v ∈ item' :: items, IsRead layout v := fun v hv => h v (List.mem_cons_of_mem _ hv)
    have hshape : renderItems layout depth (item' :: items) ++ (closing ++ ']' :: rest) =
        ',' :: (blanks ++ (layout.lineBreak depth ++ (renderAt layout depth item' ++
          (renderItems layout depth items ++ (closing ++ ']' :: rest))))) := by
      simp [renderItems, hcomma]
    rw [hshape]
    refine elements_more ((h item List.mem_cons_self depth).2 _ (endsNumber_cons (.inl rfl))) rfl ?_
    rw [skipBlanks_append hblanks, skipBlanks_append (hl.lineBreak depth),
      ((hitems item' List.mem_cons_self depth).1.append _).skipBlanks]
    exact ih item' hitems

/-- An entry is read if its value is. -/
theorem readsEntry_render (hl : layout.IsBlank) (depth : Nat) {entry : String × Json} (h : IsRead layout entry.2)
    (hrest : EndsNumber rest) :
    ReadsEntry (entry.1.toList.flatMap escapeChar ++ '"' :: (layout.colon ++ (renderAt layout depth entry.2 ++ rest)))
      entry rest := by
  obtain ⟨blanks, hblanks, hcolon⟩ := hl.colon
  refine ⟨entry.1.toList, layout.colon ++ (renderAt layout depth entry.2 ++ rest),
    blanks ++ (renderAt layout depth entry.2 ++ rest), String.ofList_toList, stringBody_written _ _ _, ?_, ?_⟩
  · rw [hcolon]
    rfl
  · rw [skipBlanks_append hblanks, ((h depth).1.append rest).skipBlanks]
    exact (h depth).2 rest hrest

/-- The entries of an object are read if their values are. -/
theorem members_render (hl : layout.IsBlank) (depth : Nat) (hc : ∀ c ∈ closing, isBlank c = true) (rest : List Char) :
    ∀ (entries : List (String × Json)) (entry : String × Json), (∀ e ∈ entry :: entries, IsRead layout e.2) →
      Reads (members ('"' :: (entry.1.toList.flatMap escapeChar ++ '"' :: (layout.colon ++
        (renderAt layout depth entry.2 ++ (renderEntries layout depth entries ++ (closing ++ '}' :: rest)))))))
        (entry :: entries) rest := by
  intro entries
  induction entries with
  | nil =>
    intro entry h
    have hend : EndsNumber (closing ++ '}' :: rest) := endsNumber_append hc (endsNumber_cons (by decide))
    refine members_last (readsEntry_render hl depth (h entry List.mem_cons_self) hend) ?_
    rw [renderEntries, List.nil_append, skipBlanks_append hc]
    rfl
  | cons entry' entries ih =>
    intro entry h
    obtain ⟨blanks, hblanks, hcomma⟩ := hl.comma
    have hentries : ∀ e ∈ entry' :: entries, IsRead layout e.2 := fun e he => h e (List.mem_cons_of_mem _ he)
    have hshape : renderEntries layout depth (entry' :: entries) ++ (closing ++ '}' :: rest) =
        ',' :: (blanks ++ (layout.lineBreak depth ++ ('"' :: (entry'.1.toList.flatMap escapeChar ++ '"' ::
          (layout.colon ++ (renderAt layout depth entry'.2 ++
            (renderEntries layout depth entries ++ (closing ++ '}' :: rest)))))))) := by
      simp [renderEntries, renderString, hcomma]
    rw [hshape]
    refine members_more (readsEntry_render hl depth (h entry List.mem_cons_self) (endsNumber_cons (.inl rfl))) rfl ?_
    rw [skipBlanks_append hblanks, skipBlanks_append (hl.lineBreak depth)]
    exact ih entry' hentries

/-! ## Values -/

theorem isRead_str (s : String) : IsRead layout (.str s) := by
  intro depth
  refine ⟨⟨'"', _, rfl, by decide⟩, ?_⟩
  intro rest _
  have hshape : renderAt layout depth (.str s) ++ rest = '"' :: (s.toList.flatMap escapeChar ++ '"' :: rest) := by
    simp [renderAt, renderString]
  rw [hshape]
  have hread := value_str (stringBody_written _ s.toList rest)
  rwa [String.ofList_toList] at hread

/-- An array is read if its items are. -/
theorem isRead_arr (hl : layout.IsBlank) (h : ∀ v ∈ items, IsRead layout v) : IsRead layout (.arr items) := by
  intro depth
  cases items with
  | nil =>
    refine ⟨⟨'[', _, rfl, by decide⟩, ?_⟩
    intro rest _
    exact value_empty_arr
  | cons item items =>
    refine ⟨⟨'[', _, rfl, by decide⟩, ?_⟩
    intro rest _
    have hshape : renderAt layout depth (.arr (item :: items)) ++ rest = '[' :: (layout.lineBreak (depth + 1) ++
        (renderAt layout (depth + 1) item ++ (renderItems layout (depth + 1) items ++
          (layout.lineBreak depth ++ ']' :: rest)))) := by
      simp [renderAt]
    have hstart := (h item List.mem_cons_self (depth + 1)).1.append
      (renderItems layout (depth + 1) items ++ (layout.lineBreak depth ++ ']' :: rest))
    have hread := elements_render hl (depth + 1) (hl.lineBreak depth) rest items item h
    rw [hshape]
    refine value_arr ?_ ?_
    all_goals rw [skipBlanks_append (hl.lineBreak (depth + 1)), hstart.skipBlanks]
    · obtain ⟨c, tail, hcs, -, hc, -⟩ := hstart
      rw [hcs]
      intro c' hc'
      cases hc'
      exact hc
    · exact hread

/-- An object with keys of its own is read if its values are. -/
theorem isRead_obj (hl : layout.IsBlank) (hkeys : (entries.map (·.1)).Nodup) (h : ∀ e ∈ entries, IsRead layout e.2) :
    IsRead layout (.obj entries) := by
  intro depth
  cases entries with
  | nil =>
    refine ⟨⟨'{', _, rfl, by decide⟩, ?_⟩
    intro rest _
    exact value_empty_obj
  | cons entry entries =>
    refine ⟨⟨'{', _, rfl, by decide⟩, ?_⟩
    intro rest _
    have hshape : renderAt layout depth (.obj (entry :: entries)) ++ rest = '{' :: (layout.lineBreak (depth + 1) ++
        ('"' :: (entry.1.toList.flatMap escapeChar ++ '"' :: (layout.colon ++
          (renderAt layout (depth + 1) entry.2 ++ (renderEntries layout (depth + 1) entries ++
            (layout.lineBreak depth ++ '}' :: rest))))))) := by
      simp [renderAt, renderString]
    have hread := members_render hl (depth + 1) (hl.lineBreak depth) rest entries entry h
    rw [hshape, ← ofEntries_of_nodup hkeys]
    refine value_obj ?_ ?_
    all_goals rw [skipBlanks_append (hl.lineBreak (depth + 1))]
    · intro c hc
      cases hc
      decide
    · exact hread

/-- **Every proper value is read from its text.** -/
theorem IsProper.isRead (hl : layout.IsBlank) (hv : IsProper v) : IsRead layout v := by
  induction hv with
  | null =>
    intro depth
    refine ⟨⟨'n', _, rfl, by decide⟩, ?_⟩
    intro rest _
    exact ⟨by simp [renderAt]; omega, by simp [renderAt, value]⟩
  | bool b =>
    intro depth
    cases b
    · refine ⟨⟨'f', _, rfl, by decide⟩, ?_⟩
      intro rest _
      exact ⟨by simp [renderAt]; omega, by simp [renderAt, value]⟩
    · refine ⟨⟨'t', _, rfl, by decide⟩, ?_⟩
      intro rest _
      exact ⟨by simp [renderAt]; omega, by simp [renderAt, value]⟩
  | int n => exact isRead_number (fun _ => rfl) fun rest hrest => number_int hrest n
  | float hx => exact isRead_number (fun _ => rfl) fun rest hrest => number_text hx hrest
  | str s => exact isRead_str s
  | arr _ ih => exact isRead_arr hl ih
  | obj hkeys _ ih => exact isRead_obj hl hkeys ih

/-- Every proper value is what its text with blanks behind it is read as. -/
theorem IsProper.parse_render_append (hl : layout.IsBlank) (hv : IsProper v) (blanks : String)
    (hb : ∀ c ∈ blanks.toList, isBlank c = true) : parse (render layout v ++ blanks) = .ok v := by
  obtain ⟨hstart, hread⟩ := hv.isRead hl 0
  have hends : EndsNumber blanks.toList := by
    have hnil : EndsNumber [] := by simp [EndsNumber]
    simpa using endsNumber_append hb hnil
  have hskip : skipBlanks blanks.toList = [] := by simpa [skipBlanks] using skipBlanks_append hb []
  obtain ⟨hlt, hvalue⟩ : Reads (value (skipBlanks (renderAt layout 0 v ++ blanks.toList))) v blanks.toList := by
    rw [(hstart.append _).skipBlanks]
    exact hread _ hends
  obtain ⟨c, tail, hcs, -, -, -, hmark⟩ := hstart
  unfold parse render
  rw [String.toList_append, String.toList_ofList]
  dsimp only
  rw [if_neg (by simp [hcs, hmark]), hvalue]
  dsimp only
  rw [hskip]

/-- **Every proper value is what its text is read as.** -/
theorem IsProper.parse_render (hl : layout.IsBlank) (hv : IsProper v) : parse (render layout v) = .ok v := by
  simpa using hv.parse_render_append hl "" (by simp)

end FixtureCheck.Json
