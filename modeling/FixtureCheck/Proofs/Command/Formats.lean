import FixtureCheck.Proofs.Command.Run

/-!
# The two formats of the report

The report for readers shows the same findings as the report for programs, so both formats are to come to the same
(`SameInBothFormats`). They do just for the fixtures whose target and export are texts, or are not shown at all
(`sameInBothFormats_iff`): nothing else can be put in the overview, and the command fails with it.
-/

namespace FixtureCheck

/-- A text that begins like a message about a failure is no JSON text. -/
theorem Json.parse_failure_ne_ok (rest : List Char) (v : Json) : Json.parse (String.ofList ('E' :: rest)) ≠ .ok v := by
  have hvalue : Json.value (Json.skipBlanks ('E' :: rest)) = .error ⟨.value, rest.length + 1⟩ := by
    show Json.value ('E' :: rest) = _
    unfold Json.value
    simp [Json.number, Json.unsignedNumber, Json.wholePart, Char.isDigit]
    rfl
  unfold Json.parse
  dsimp only
  rw [String.toList_ofList, if_neg (by simp), hvalue]
  simp

namespace Validation

open Report (IsShowable Says Summary successText)

variable {v : Validation} {machine : Machine} {settings : Settings} {summary : Summary}

/-- The label of the report for readers. -/
def readersLabel : String := "console"

/-- What a validation comes to in a format: how it ends, and the texts that it prints. -/
def traceIn (v : Validation) (label : String) (machine : Machine) : Command.Outcome × List String :=
  (Command.validate { v with output := some label }).trace machine

/-- **Does a validation come to the same in both formats?** It ends with one exit code, and the line about a fixture
without errors is printed, as a text of its own, just if the report for programs says that the fixture is valid. -/
structure SameInBothFormats (v : Validation) (machine : Machine) : Prop where
  exitCode : (v.traceIn readersLabel machine).1.exitCode = (v.traceIn Report.jsonLabel machine).1.exitCode
  verdict : successText ∈ (v.traceIn readersLabel machine).2 ↔
    ∃ text ∈ (v.traceIn Report.jsonLabel machine).2, ∃ report, Json.parse text = .ok report ∧ Says report ["valid"] true

/-! ## Each format -/

/-- The findings do not depend on the format. -/
theorem Finds.inFormat (h : v.Finds machine settings summary) (label : String) :
    Finds { v with output := some label } machine settings summary := h

theorem Finds.unique {settings' : Settings} {summary' : Summary} (h : v.Finds machine settings summary)
    (h' : v.Finds machine settings' summary') : summary' = summary := by
  have heq := h'.symm.trans h
  cases heq
  rfl

/-- A command that fails without findings prints one text in every format, which neither is the line about a fixture
without errors nor can be read as a report. -/
theorem sameInBothFormats_of_not_found {failure : Command.Failure}
    (h : (outcome v.findings machine).1 = .error failure) : v.SameInBothFormats machine := by
  have htrace : ∀ label, ∃ rest, (v.traceIn label machine).1.exitCode = 1 ∧
      (v.traceIn label machine).2 = [String.ofList ('E' :: rest)] := by
    intro label
    obtain ⟨rest, htrace⟩ := trace_of_not_found (v := { v with output := some label }) h
    exact ⟨rest, by rw [traceIn, htrace]; exact ⟨rfl, rfl⟩⟩
  obtain ⟨rest, hexit, htexts⟩ := htrace readersLabel
  obtain ⟨rest', hexit', htexts'⟩ := htrace Report.jsonLabel
  refine ⟨hexit.trans hexit'.symm, ?_⟩
  rw [htexts, htexts']
  constructor
  · intro hm
    have hbegins := congrArg String.toList (List.mem_singleton.1 hm)
    rw [String.toList_ofList] at hbegins
    cases hbegins
  · rintro ⟨text, hm, report, hparse, -⟩
    rw [List.mem_singleton.1 hm] at hparse
    exact absurd hparse (Json.parse_failure_ne_ok rest' report)

/-- The report for programs tells the verdict by the exit code and in its text. -/
theorem traceIn_json (h : v.Finds machine settings summary) :
    (v.traceIn Report.jsonLabel machine).1.exitCode = v.exitCode summary ∧
      ((∃ text ∈ (v.traceIn Report.jsonLabel machine).2, ∃ report,
        Json.parse text = .ok report ∧ Says report ["valid"] true) ↔ summary.report.isValid = true) := by
  have htrace : v.traceIn Report.jsonLabel machine =
      ({ exitCode := v.exitCode summary }, [summary.toJson.indented ++ "\n"]) :=
    trace_of_programs (h.inFormat Report.jsonLabel) rfl
  rw [htrace]
  refine ⟨rfl, ?_⟩
  simp [h.parse_report, Report.says_verdict]

/-- The report for readers tells the same if it is printed to its end. -/
theorem traceIn_console (h : v.Finds machine settings summary) (hn : summary.NamesArePlain)
    (ht : IsShowable summary.target) (he : IsShowable summary.exportName) :
    (v.traceIn readersLabel machine).1.exitCode = v.exitCode summary ∧
      (successText ∈ (v.traceIn readersLabel machine).2 ↔ summary.report.isValid = true) := by
  obtain ⟨hend, hverdict⟩ := Report.textsOf_blocks hn ht he
  have htrace : v.traceIn readersLabel machine =
      ({ exitCode := v.exitCode summary }, (Report.textsOf summary.blocks).1) :=
    trace_of_readers (h.inFormat readersLabel) rfl hend
  rw [htrace]
  exact ⟨rfl, hverdict⟩

/-- The report for readers makes the command fail if something of the fixture cannot be shown. -/
theorem exitCode_console_of_not_showable (h : v.Finds machine settings summary)
    (hs : ¬ (IsShowable summary.target ∧ IsShowable summary.exportName)) :
    (v.traceIn readersLabel machine).1.exitCode = 1 := by
  obtain ⟨kind, hend⟩ := Report.textsOf_blocks_of_not_showable hs
  obtain ⟨rest, htrace⟩ := trace_of_broken_off (h.inFormat readersLabel) rfl hend
  rw [traceIn, htrace]
  rfl

theorem exitCode_ne_one (v : Validation) (summary : Summary) : v.exitCode summary ≠ 1 := by
  unfold exitCode
  split <;> decide

theorem Finds.sameInBothFormats_iff (h : v.Finds machine settings summary) (hn : summary.NamesArePlain) :
    v.SameInBothFormats machine ↔ IsShowable summary.target ∧ IsShowable summary.exportName := by
  obtain ⟨hexit, hverdict⟩ := traceIn_json h
  constructor
  · intro hsame
    by_contra hs
    refine exitCode_ne_one v summary ?_
    rw [← hexit, ← hsame.exitCode, exitCode_console_of_not_showable h hs]
  · rintro ⟨ht, he⟩
    obtain ⟨hexit', hverdict'⟩ := traceIn_console h hn ht he
    exact ⟨hexit'.trans hexit.symm, hverdict'.trans hverdict.symm⟩

theorem namesArePlain_of_finds_stray {target : Json} (ht : target.IsProper) (format : String) :
    ∀ settings summary, (strayValidation format).Finds (strayMachine target) settings summary →
      summary.NamesArePlain := by
  intro settings summary h
  obtain ⟨settings', hfinds⟩ := finds_stray ht format
  rw [hfinds.unique h]
  refine ⟨?_, ?_, ?_, by simp [straySummary]⟩
  · exact Report.isInert_of_not_mem (show '[' ∉ "f.json".toList by decide)
  · exact Report.isInert_of_not_mem (show '[' ∉ "q.graphql".toList by decide)
  · exact Report.isInert_of_not_mem (show '[' ∉ "file://s.graphql".toList by decide)

/-! ## Both formats -/

end Validation

end FixtureCheck
