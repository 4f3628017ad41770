import FixtureCheck.Proofs.Machine
import FixtureCheck.Proofs.Report.Markup
import FixtureCheck.Report.Summary

/-!
# What the report for readers shows

The report for readers is printed to its end (`textsOf_blocks`) if the target and the export are texts or nothing
(`IsShowable`) and the names in it hold no tags (`Summary.NamesArePlain`): the errors that were found are escaped. The
line about a fixture without errors is then printed just if there are none, since no other block begins like it. A
target or an export of another kind breaks the report off at its overview (`textsOf_blocks_of_not_showable`).
-/

namespace FixtureCheck.Report

variable {c : Char} {cs rest : List Char} {text : String} {block : Block} {rows : List (String × String)} {s : Summary}

/-! ## Printing -/

/-- The text of a block, if there are both. -/
def textOf (block : Except ReportError Block) : Except ReportError String :=
  block.bind fun block => block.text.mapError .markup

/-- The texts of blocks up to the first one that fails, and whether there is one. -/
def textsOf : List (Except ReportError Block) → List String × Except ReportError Unit
  | [] => ([], .ok ())
  | block :: blocks =>
    match textOf block with
    | .error e => ([], .error e)
    | .ok text => (text :: (textsOf blocks).1, (textsOf blocks).2)

/-- Blocks are printed one after the other up to the first one that fails. -/
theorem outcome_printBlocks (blocks : List (Except ReportError Block)) (machine : Machine) :
    outcome (printBlocks blocks) machine =
      ((textsOf blocks).2, { machine with printed := machine.printed ++ (textsOf blocks).1 }) := by
  induction blocks generalizing machine with
  | nil =>
    show (Except.ok (), machine) = _
    simp [textsOf]
  | cons block blocks ih =>
    have hprint : ∀ text, outcome (Host.print text : ExceptT ReportError (StateM Machine) Unit) machine =
        (.ok (), { machine with printed := machine.printed ++ [text] }) := fun _ => rfl
    show outcome ((MonadExcept.ofExcept (textOf block) >>= Host.print) >>= fun _ => printBlocks blocks) machine = _
    rw [outcome_bind, outcome_bind, outcome_ofExcept, textsOf]
    cases textOf block with
    | error e => simp
    | ok text => simp [hprint, ih]

theorem textsOf_cons_ok {block : Except ReportError Block} {blocks : List (Except ReportError Block)}
    (h : textOf block = .ok text) : textsOf (block :: blocks) = (text :: (textsOf blocks).1, (textsOf blocks).2) := by
  rw [textsOf, h]

/-- Every text that is printed is that of a block. -/
theorem exists_of_mem_textsOf : ∀ {blocks : List (Except ReportError Block)}, text ∈ (textsOf blocks).1 →
    ∃ block ∈ blocks, textOf block = .ok text := by
  intro blocks h
  induction blocks with
  | nil => cases h
  | cons block blocks ih =>
    rw [textsOf] at h
    split at h
    · cases h
    next text' htext =>
      rcases List.mem_cons.1 h with rfl | h
      · exact ⟨block, List.mem_cons_self, htext⟩
      · obtain ⟨block', hm, hb⟩ := ih h
        exact ⟨block', List.mem_cons_of_mem _ hm, hb⟩

/-- Blocks that all have texts are all printed. -/
theorem textsOf_of_forall {blocks : List (Except ReportError Block)}
    (h : ∀ block ∈ blocks, ∃ text, textOf block = .ok text) :
    (textsOf blocks).2 = .ok () ∧ ∀ block ∈ blocks, ∀ text, textOf block = .ok text → text ∈ (textsOf blocks).1 := by
  induction blocks with
  | nil => exact ⟨rfl, by simp⟩
  | cons block blocks ih =>
    obtain ⟨text, htext⟩ := h block List.mem_cons_self
    obtain ⟨hend, hall⟩ := ih fun block' hm => h block' (List.mem_cons_of_mem _ hm)
    rw [textsOf_cons_ok htext]
    refine ⟨hend, fun block' hm text' htext' => ?_⟩
    rcases List.mem_cons.1 hm with rfl | hm
    · rw [htext] at htext'
      cases htext'
      exact List.mem_cons_self
    · exact List.mem_cons_of_mem _ (hall block' hm text' htext')

/-! ## Lines -/

/-- The text of the line about a fixture without errors. -/
def successText : String := "\n✓ Fixture matches query\n"

theorem text_successLine : successLine.text = .ok successText := eq_ok_of_toOption (by decide +kernel)

theorem exists_shown {markup : String} (h : Balanced [] (piecesOf markup.toList)) : ∃ cs, shown markup = .ok cs := by
  obtain ⟨out, hout⟩ := exists_plain_of_balanced h
  exact ⟨_, by rw [shown, hout]; rfl⟩

/-- A character that takes its own place on the console. -/
structure IsPrinted (c : Char) : Prop where
  leftOut : isLeftOut c = false
  tab : c ≠ '\t'
  newline : c ≠ '\n'

/-- A line is shown from its first character on. -/
theorem text_line_of_plain {markup out : String} (h : plain markup = .ok out) (ho : out.toList = c :: cs)
    (hc : IsPrinted c) : ∃ rest, (Block.line markup).text = .ok (String.ofList (c :: rest)) := by
  have hexpand : ∀ cs, expandTabs 0 (c :: cs) = c :: expandTabs 1 cs := by
    intro cs
    rw [expandTabs]
    · exact hc.tab
    · exact hc.newline
  refine ⟨expandTabs 1 (cs.filter (!isLeftOut ·)) ++ ['\n'], ?_⟩
  rw [Block.text, shown, h, Except.map, Except.map, ho, List.filter_cons_of_pos (by simpa using hc.leftOut), hexpand,
    List.cons_append]

/-- A line that begins with a newline is shown from there on. -/
theorem text_line_of_newline {markup out : String} (h : plain markup = .ok out) (ho : out.toList = '\n' :: c :: cs)
    (hc : IsPrinted c) : ∃ rest, (Block.line markup).text = .ok (String.ofList ('\n' :: c :: rest)) := by
  have hexpand : ∀ cs, expandTabs 0 ('\n' :: c :: cs) = '\n' :: c :: expandTabs 1 cs := by
    intro cs
    rw [expandTabs, expandTabs]
    · exact hc.tab
    · exact hc.newline
  refine ⟨expandTabs 1 (cs.filter (!isLeftOut ·)) ++ ['\n'], ?_⟩
  rw [Block.text, shown, h, Except.map, Except.map, ho, List.filter_cons_of_pos (by decide),
    List.filter_cons_of_pos (by simpa using hc.leftOut), hexpand, List.cons_append, List.cons_append]

theorem isStyle_boldCyan : IsStyle "bold cyan".toList := by
  refine ⟨⟨?_, by simp [isBracket]⟩, ?_, ?_, ?_⟩ <;> decide

theorem isStyle_red : IsStyle "red".toList := by
  refine ⟨⟨?_, by simp [isBracket]⟩, ?_, ?_, ?_⟩ <;> decide

theorem isStyle_green : IsStyle "green".toList := by
  refine ⟨⟨?_, by simp [isBracket]⟩, ?_, ?_, ?_⟩ <;> decide

theorem isStyle_dim : IsStyle "dim".toList := by
  refine ⟨⟨?_, by simp [isBracket]⟩, ?_, ?_, ?_⟩ <;> decide

/-- An error is shown behind two blanks. -/
theorem text_of_error (e : String) :
    ∃ rest, (Block.line ("  [red]✖[/red] " ++ escape e)).text = .ok (String.ofList (' ' :: rest)) := by
  have htext : ("  [red]✖[/red] " ++ escape e).toList =
      ' ' :: ' ' :: styled "red".toList ['✖'] (' ' :: (escape e).toList) := by
    simp [styled]
  have hbalanced : Balanced [] (piecesOf ("  [red]✖[/red] " ++ escape e).toList) := by
    have hmore : IsInert (' ' :: (escape e).toList) := (isInert_escape e).cons (by decide) (by decide)
    rw [htext, piecesOf, piecesFrom_char (by decide) (by decide), piecesFrom_char (by decide) (by decide)]
    exact ((balanced_styled isStyle_red (isInert_of_not_mem (by decide)) hmore []).char ' ').char ' '
  obtain ⟨out, hout⟩ := exists_plain_of_balanced hbalanced
  obtain ⟨rest, ho⟩ := head_of_plain htext (by decide) (by decide) hout
  exact text_line_of_plain hout ho ⟨by decide, by decide, by decide⟩

/-- A failure is shown behind a word that says so. -/
theorem text_of_failure (message : String) :
    ∃ rest, (Block.line ("[red]Error: " ++ escape message ++ "[/red]")).text = .ok (String.ofList ('E' :: rest)) := by
  have htext : ("[red]Error: " ++ escape message ++ "[/red]").toList =
      styled "red".toList ('E' :: ("rror: ".toList ++ (escape message).toList)) [] := by
    simp [styled]
  have hinert : IsInert ('E' :: ("rror: ".toList ++ (escape message).toList)) :=
    ((isInert_escape message).append_left (by decide) (by decide)).cons (by decide) (by decide)
  obtain ⟨out, hout⟩ := exists_plain_of_balanced
    (htext ▸ balanced_styled isStyle_red hinert (isInert_of_not_mem (by decide)) [])
  obtain ⟨cs, hcs, rfl⟩ := map_eq_ok_iff.1 hout
  rw [htext] at hcs
  obtain ⟨rest, rfl⟩ := head_of_styled isStyle_red (by decide) (by decide) hcs
  have ho : (String.ofList (dropBackslashes [].reverse ++ 'E' :: rest)).toList = 'E' :: rest := by
    simp [dropBackslashes]
  exact text_line_of_plain hout ho ⟨by decide, by decide, by decide⟩

/-- **Can the text be a title?** It begins with a capital letter, and holds no tags but escaped ones. -/
structure IsTitle (title : String) : Prop where
  begins : ∃ c cs, title.toList = c :: cs ∧ c.isUpper = true
  inert : IsInert title.toList

theorem ne_of_isUpper {d : Char} (h : c.isUpper = true) (hd : d.isUpper = false) : c ≠ d := by
  rintro rfl
  rw [h] at hd
  cases hd

theorem isPrinted_of_isUpper (h : c.isUpper = true) : IsPrinted c where
  leftOut := by
    cases hl : isLeftOut c with
    | false => rfl
    | true =>
      have hchar : c = Char.ofNat c.toNat := (Char.ofNat_toNat c).symm
      simp only [isLeftOut, List.contains_cons, List.contains_nil, Bool.or_eq_true, beq_iff_eq, Bool.or_false] at hl
      rcases hl with hl | hl | hl | hl | hl <;> rw [hchar, hl] at h <;> cases h
  tab := ne_of_isUpper h (by decide)
  newline := ne_of_isUpper h (by decide)

/-- A title is shown on a line of its own. -/
theorem text_of_title {title : String} (h : IsTitle title) : ∃ c rest, c.isUpper = true ∧
    (Block.line s!"\n[bold cyan]{title}:[/bold cyan]\n").text = .ok (String.ofList ('\n' :: c :: rest)) := by
  obtain ⟨c, cs, ht, hc⟩ := h.begins
  have hpieces : piecesOf ("\n[bold cyan]" ++ title ++ ":[/bold cyan]\n").toList =
      .char '\n' :: piecesOf (styled "bold cyan".toList (c :: cs ++ [':']) ['\n']) := by
    have htext : ("\n[bold cyan]" ++ title ++ ":[/bold cyan]\n").toList =
        '\n' :: styled "bold cyan".toList (c :: cs ++ [':']) ['\n'] := by
      simp [styled, ht]
    rw [htext, piecesOf, piecesFrom_char (by decide) (by decide)]
    rfl
  have hinert : IsInert (c :: cs ++ [':']) := ht ▸ h.inert.append (by decide) (by decide)
  have hmore : IsInert ['\n'] := isInert_of_not_mem (by decide)
  obtain ⟨out, hout⟩ :=
    exists_plain_of_balanced (hpieces ▸ (balanced_styled isStyle_boldCyan hinert hmore []).char '\n')
  obtain ⟨shown, hshown, rfl⟩ := map_eq_ok_iff.1 hout
  rw [hpieces, plainPieces] at hshown
  obtain ⟨rest, rfl⟩ :=
    head_of_styled isStyle_boldCyan (ne_of_isUpper hc (by decide)) (ne_of_isUpper hc (by decide)) hshown
  have ho : (String.ofList (dropBackslashes ['\n'].reverse ++ c :: rest)).toList = '\n' :: c :: rest := by
    simp [dropBackslashes]
  obtain ⟨rest', htext⟩ := text_line_of_newline hout ho (isPrinted_of_isUpper hc)
  exact ⟨c, rest', hc, htext⟩

/-- **The errors that a check found are shown**, and no line about them is that about a fixture without errors. -/
theorem text_of_errorBlocks {title : String} (h : IsTitle title) (errors : List String) :
    ∀ block ∈ errorBlocks title errors, ∃ text, block.text = .ok text ∧ text ≠ successText := by
  have hsuccess : successText.toList = '\n' :: '✓' :: " Fixture matches query\n".toList := by decide
  unfold errorBlocks
  split
  · simp
  · intro block hb
    rcases List.mem_cons.1 hb with rfl | hb
    · obtain ⟨c, rest, hc, htext⟩ := text_of_title h
      refine ⟨_, htext, fun heq => ?_⟩
      have hbegins := congrArg String.toList heq
      rw [String.toList_ofList, hsuccess] at hbegins
      cases hbegins
      cases hc
    · obtain ⟨e, -, rfl⟩ := List.mem_map.1 hb
      obtain ⟨rest, htext⟩ := text_of_error e
      refine ⟨_, htext, fun heq => ?_⟩
      have hbegins := congrArg String.toList heq
      rw [String.toList_ofList, hsuccess] at hbegins
      cases hbegins

/-! ## The overview -/

theorem exists_cellLines (cs : List Char) : ∃ line lines, cellLines cs = line :: lines := by
  cases cs with
  | nil => exact ⟨_, _, rfl⟩
  | cons c cs =>
    rw [cellLines]
    split
    · exact ⟨_, _, rfl⟩
    · split <;> exact ⟨_, _, rfl⟩

/-- A row begins with the blank in front of its first cell. -/
theorem exists_rowText (left right : Nat) {row : List (List Char) × List (List Char)}
    (h : ∃ line lines, row.1 = line :: lines) : ∃ rest, rowText left right row = ' ' :: rest := by
  obtain ⟨line, lines, hrow⟩ := h
  obtain ⟨n, hn⟩ : ∃ n, max row.1.length row.2.length = n + 1 :=
    Nat.exists_eq_add_one.2 (by rw [hrow, List.length_cons]; omega)
  unfold rowText
  rw [hn, List.range_succ_eq_map, List.flatMap_cons]
  exact ⟨_, rfl⟩

/-- **Has a row a text?** Both of its cells close only what they open. -/
def HasText (row : String × String) : Prop := Balanced [] (piecesOf row.1.toList) ∧ Balanced [] (piecesOf row.2.toList)

/-- A table of rows that have texts is shown, from the blank in front of its first cell on. -/
theorem text_of_table (h : ∀ row ∈ rows, HasText row) (hne : rows ≠ []) :
    ∃ rest, (Block.table rows).text = .ok (String.ofList (' ' :: rest)) := by
  have hcells : ∀ row ∈ rows, ∃ cells, rowCells row = .ok cells := by
    intro row hr
    obtain ⟨left, hleft⟩ := exists_shown (h row hr).1
    obtain ⟨right, hright⟩ := exists_shown (h row hr).2
    exact ⟨(cellLines left, cellLines right), by rw [rowCells, hleft, hright]; rfl⟩
  obtain ⟨cells, hall⟩ := exists_mapM hcells
  obtain ⟨row, hrow⟩ := List.exists_mem_of_ne_nil rows hne
  obtain ⟨some, hsome, -⟩ := mem_mapM hall hrow
  obtain ⟨first, others, rfl⟩ := List.exists_cons_of_ne_nil (List.ne_nil_of_mem hsome)
  obtain ⟨row', -, hfirst⟩ := mem_of_mapM hall List.mem_cons_self
  have hne' : ∃ line lines, first.1 = line :: lines := by
    obtain ⟨left, -, hfirst⟩ := bind_eq_ok_iff.1 hfirst
    obtain ⟨right, -, hfirst⟩ := bind_eq_ok_iff.1 hfirst
    cases hfirst
    exact exists_cellLines left
  obtain ⟨rest, hrest⟩ := exists_rowText (columnWidth ((first :: others).map (·.1)))
    (columnWidth ((first :: others).map (·.2))) hne'
  refine ⟨rest ++ others.flatMap (rowText (columnWidth ((first :: others).map (·.1)))
    (columnWidth ((first :: others).map (·.2)))), ?_⟩
  rw [Block.text, tableText, hall, ok_bind, List.flatMap_cons, hrest, List.cons_append]
  rfl

/-! ## The report -/

/-- **Can a value of the fixture be shown?** It is a text, or nothing is shown. -/
def IsShowable (value : Json) : Prop := value.isEmptyLike = true ∨ ∃ text, value = .str text

/-- **Do the names in a report hold no tags but escaped ones?** -/
structure Summary.NamesArePlain (s : Summary) : Prop where
  fixture : IsInert s.fixture.toList
  query : IsInert s.query.toList
  schema : IsInert s.schema.asText.toList
  mutation : ∀ result ∈ s.report.output, IsInert result.mutation.asText.toList

theorem hasText_of_name {name value : String} (hn : '[' ∉ name.toList) (hv : Balanced [] (piecesOf value.toList)) :
    HasText (name, value) := ⟨(isInert_of_not_mem hn).balanced [], hv⟩

theorem balanced_dimmed (h : IsInert text.toList) : Balanced [] (piecesOf (dimmed text).toList) := by
  have htext : (dimmed text).toList = styled "dim".toList text.toList [] := by
    show ("[dim]" ++ text ++ "[/dim]").toList = _
    simp [styled]
  rw [htext]
  exact balanced_styled isStyle_dim h (isInert_of_not_mem (by decide)) []

theorem balanced_status (errors : List String) : Balanced [] (piecesOf (status errors).toList) := by
  unfold status
  split
  · have htext : "[green]✓[/green] valid".toList = styled "green".toList ['✓'] " valid".toList := by decide
    rw [htext]
    exact balanced_styled isStyle_green (isInert_of_not_mem (by decide)) (isInert_of_not_mem (by decide)) []
  · have htext : ("[red]✖[/red] " ++ toString errors.length ++ " error(s)").toList =
        styled "red".toList ['✖'] (' ' :: ((toString errors.length).toList ++ " error(s)".toList)) := by
      simp [styled]
    have hdigits : '[' ∉ Nat.toDigits 10 errors.length := by
      intro hm
      exact absurd (Nat.isDigit_of_mem_toDigits (by decide) (by decide) hm) (by decide)
    have hmore : IsInert (' ' :: ((toString errors.length).toList ++ " error(s)".toList)) :=
      isInert_of_not_mem (by simp [hdigits])
    have hmark : IsInert ['✖'] := isInert_of_not_mem (by decide)
    have hbalanced := balanced_styled isStyle_red hmark hmore []
    rwa [← htext] at hbalanced

/-- What is said about a check that may have been skipped. -/
theorem balanced_checked {α : Type} {skipped : String} (hs : '[' ∉ skipped.toList) (result : Option α)
    (errors : α → List String) :
    Balanced [] (piecesOf (result.elim (dimmed skipped) fun r => status (errors r)).toList) := by
  cases result with
  | none => exact balanced_dimmed (isInert_of_not_mem hs)
  | some r => exact balanced_status (errors r)

theorem exists_partRow {name : String} {value : Json} (hn : '[' ∉ name.toList) (hv : IsShowable value) :
    ∃ rows, partRow name value = .ok rows ∧ ∀ row ∈ rows, HasText row := by
  unfold partRow
  split
  next => exact ⟨[], rfl, by simp⟩
  next hnonempty =>
    rcases hv with hempty | ⟨text, rfl⟩
    · exact absurd hempty hnonempty
    · refine ⟨_, rfl, fun row hr => ?_⟩
      rw [List.mem_singleton.1 hr]
      exact hasText_of_name hn (balanced_dimmed (isInert_escape text))

theorem partRow_of_not_showable {name : String} {value : Json} (h : ¬ IsShowable value) :
    partRow name value = .error (.notText value.kindName) := by
  unfold partRow
  split
  next hempty => exact absurd (.inl hempty) h
  next =>
    split
    · exact absurd (.inr ⟨_, rfl⟩) h
    · rfl

/-- The overview is shown if everything in it can be. -/
theorem text_of_overview (hn : s.NamesArePlain) (ht : IsShowable s.target) (he : IsShowable s.exportName) :
    ∃ rest, textOf s.overview = .ok (String.ofList (' ' :: rest)) := by
  obtain ⟨target, htarget, htargets⟩ := exists_partRow (show '[' ∉ "Target".toList by decide) ht
  obtain ⟨exportName, hexport, hexports⟩ := exists_partRow (show '[' ∉ "Export".toList by decide) he
  have hloaded : ∀ row ∈
      [("Fixture", dimmed s.fixture), ("Query", dimmed s.query), ("Schema", dimmed s.schema.asText)], HasText row := by
    simp only [List.forall_mem_cons, List.not_mem_nil, false_imp_iff, implies_true, and_true]
    exact ⟨hasText_of_name (by decide) (balanced_dimmed hn.fixture),
      hasText_of_name (by decide) (balanced_dimmed hn.query), hasText_of_name (by decide) (balanced_dimmed hn.schema)⟩
  have hchecks : ∀ row ∈ [("Input query", status s.report.queryErrors),
      ("Fixture input", s.report.input.elim (dimmed "skipped") fun r => status r.errors),
      ("Fixture output", s.report.output.elim (dimmed "skipped (no mutation)") fun r => status r.errors)],
      HasText row := by
    simp only [List.forall_mem_cons, List.not_mem_nil, false_imp_iff, implies_true, and_true]
    exact ⟨hasText_of_name (by decide) (balanced_status _),
      hasText_of_name (by decide) (balanced_checked (by decide) s.report.input (·.errors)),
      hasText_of_name (by decide) (balanced_checked (by decide) s.report.output (·.errors))⟩
  have hrows := List.forall_mem_append.2
    ⟨List.forall_mem_append.2 ⟨List.forall_mem_append.2 ⟨hloaded, htargets⟩, hexports⟩, hchecks⟩
  obtain ⟨rest, hrest⟩ := text_of_table hrows (by simp)
  refine ⟨rest, ?_⟩
  unfold textOf Summary.overview
  rw [htarget, ok_bind, hexport, ok_bind]
  show Except.mapError _ (Block.text _) = _
  rw [hrest]
  rfl

theorem overview_of_not_showable (h : ¬ (IsShowable s.target ∧ IsShowable s.exportName)) :
    ∃ kind, textOf s.overview = .error (.notText kind) := by
  unfold textOf Summary.overview
  by_cases ht : IsShowable s.target
  · obtain ⟨target, htarget, -⟩ := exists_partRow (show '[' ∉ "Target".toList by decide) ht
    rw [htarget, ok_bind, partRow_of_not_showable fun he => h ⟨ht, he⟩]
    exact ⟨_, rfl⟩
  · rw [partRow_of_not_showable ht]
    exact ⟨_, rfl⟩

theorem isTitle_of_output {label : String} (h : IsInert label.toList) : IsTitle s!"Fixture output ({label})" := by
  have htext : ("Fixture output (" ++ label ++ ")").toList = "Fixture output (".toList ++ (label.toList ++ [')']) := by
    simp
  have hlabel : IsInert (label.toList ++ [')']) := h.append (by decide) (by decide)
  exact ⟨⟨_, _, htext, by decide⟩, htext ▸ hlabel.append_left (by decide) (by decide)⟩

/-- Behind the overview everything is shown; the line about a fixture without errors only for such a fixture. -/
theorem text_of_details (hn : s.NamesArePlain) :
    ∀ block ∈ s.details, ∃ text, block.text = .ok text ∧ (text = successText → s.report.isValid = true) := by
  have hquery : IsTitle "Input query" := ⟨⟨_, _, rfl, by decide⟩, isInert_of_not_mem (by decide)⟩
  have hinput : IsTitle "Fixture input" := ⟨⟨_, _, rfl, by decide⟩, isInert_of_not_mem (by decide)⟩
  have herrors : ∀ {title : String}, IsTitle title → ∀ errors, ∀ block ∈ errorBlocks title errors,
      ∃ text, block.text = .ok text ∧ (text = successText → s.report.isValid = true) := by
    intro title ht errors block hb
    obtain ⟨text, htext, hne⟩ := text_of_errorBlocks ht errors block hb
    exact ⟨text, htext, fun h => absurd h hne⟩
  intro block hb
  simp only [Summary.details, List.mem_append, List.mem_singleton] at hb
  rcases hb with (((hb | hb) | hb) | hb) | rfl
  · exact herrors hquery _ block hb
  · cases hi : s.report.input with
    | none => simp [hi] at hb
    | some result =>
      rw [hi] at hb
      exact herrors hinput _ block hb
  · cases ho : s.report.output with
    | none => simp [ho] at hb
    | some result =>
      rw [ho] at hb
      exact herrors (isTitle_of_output (hn.mutation result ho)) _ block hb
  · split at hb
    next hvalid =>
      rw [List.mem_singleton.1 hb]
      exact ⟨successText, text_successLine, fun _ => hvalid⟩
    · cases hb
  · exact ⟨"\n", eq_ok_of_toOption (by decide +kernel), fun h => absurd h (by decide)⟩

theorem textOf_ok (block : Block) : textOf (.ok block) = block.text.mapError .markup := rfl

theorem textOf_heading : ∃ text,
    textOf (.ok (.line "\n[bold cyan]Fixture Validation Summary[/bold cyan]\n")) = .ok text ∧ text ≠ successText :=
  ⟨"\nFixture Validation Summary\n\n", eq_ok_of_toOption (by decide +kernel), by decide⟩

/-- **The report is printed to its end** if what it shows of the fixture can be shown, with the line about a fixture
without errors just if there are none. -/
theorem textsOf_blocks (hn : s.NamesArePlain) (ht : IsShowable s.target) (he : IsShowable s.exportName) :
    (textsOf s.blocks).2 = .ok () ∧ (successText ∈ (textsOf s.blocks).1 ↔ s.report.isValid = true) := by
  obtain ⟨heading, hheading, hheading'⟩ := textOf_heading
  obtain ⟨rest, hoverview⟩ := text_of_overview hn ht he
  have hdetails : ∀ block ∈ s.details.map Except.ok, ∃ text, textOf block = .ok text := by
    intro block hb
    obtain ⟨block, hm, rfl⟩ := List.mem_map.1 hb
    obtain ⟨text, htext, -⟩ := text_of_details hn block hm
    exact ⟨text, by rw [textOf_ok, htext]; rfl⟩
  obtain ⟨hend, hall⟩ := textsOf_of_forall hdetails
  unfold Summary.blocks
  rw [textsOf_cons_ok hheading, textsOf_cons_ok hoverview]
  refine ⟨hend, ?_, fun hvalid => ?_⟩
  · intro hm
    rcases List.mem_cons.1 hm with rfl | hm
    · exact absurd rfl hheading'
    rcases List.mem_cons.1 hm with h | hm
    · have hbegins := congrArg String.toList h
      rw [String.toList_ofList] at hbegins
      cases hbegins
    · obtain ⟨block, hb, htext⟩ := exists_of_mem_textsOf hm
      obtain ⟨block, hdetail, rfl⟩ := List.mem_map.1 hb
      obtain ⟨text, htext', hsuccess⟩ := text_of_details hn block hdetail
      rw [textOf_ok, htext'] at htext
      cases htext
      exact hsuccess rfl
  · have hline : successLine ∈ s.details := by simp [Summary.details, hvalid]
    have htext : textOf (.ok successLine) = .ok successText := by
      rw [textOf_ok, text_successLine]
      rfl
    exact List.mem_cons_of_mem _ (List.mem_cons_of_mem _ (hall _ (List.mem_map_of_mem hline) _ htext))

/-- The report is broken off at its overview if something of the fixture cannot be shown. -/
theorem textsOf_blocks_of_not_showable (h : ¬ (IsShowable s.target ∧ IsShowable s.exportName)) :
    ∃ kind, (textsOf s.blocks).2 = .error (.notText kind) := by
  obtain ⟨heading, hheading, -⟩ := textOf_heading
  obtain ⟨kind, hoverview⟩ := overview_of_not_showable h
  refine ⟨kind, ?_⟩
  unfold Summary.blocks
  rw [textsOf_cons_ok hheading, textsOf, hoverview]

end FixtureCheck.Report
