import FixtureCheck.Proofs.Command.Run
import FixtureCheck.Proofs.Json.Written

/-!
# The report for programs tells the truth

A validation that is asked for the report for programs and does not fail prints one text, which is read as the report on
what it found; and that report tells the truth (`exists_truthful_report`). The same can be said of the arguments of the
program, while arguments that tell no command print nothing (`truthful_of_arguments`).
-/

namespace FixtureCheck.Validation

open Report (IsTruthful Summary)

variable {v : Validation} {machine : Machine} {settings : Settings} {summary : Summary}

theorem isForPrograms_format (h : v.output = some Report.jsonLabel) (settings : Settings) :
    Report.isForPrograms (v.format settings) = true := by
  unfold format
  rw [h]
  rfl

/-- A mutation is named by the option, or by the settings if the option names none. -/
theorem isEmptyLike_mutation (v : Validation) (settings : Settings) :
    (!(v.checkRequest settings).mutation.isEmptyLike) =
      (Command.isGiven v.mutation || !settings.mutation.isEmptyLike) := by
  show (!(Command.orSetting v.mutation settings.mutation).isEmptyLike) = _
  unfold Command.orSetting Command.isGiven
  split
  next h => simp [h]
  next h => simp [h]
  next text hne h =>
    have htext : text ≠ "" := fun h => hne (by rw [h])
    simp [h, htext, Json.isEmptyLike]

/-- A validation that does not fail has come to findings. -/
theorem exists_finds (hexit : ((Command.validate v).trace machine).1.exitCode = 0 ∨
    ((Command.validate v).trace machine).1.exitCode = 2) :
    ∃ settings summary, v.Finds machine settings summary := by
  cases hfound : (outcome v.findings machine).1 with
  | error failure =>
    obtain ⟨rest, htrace⟩ := trace_of_not_found hfound
    rw [htrace] at hexit
    simp [Command.failed] at hexit
  | ok found => exact ⟨found.1, found.2, hfound⟩

/-- The report for programs on findings is one text. It is read as that report, which tells the truth. -/
theorem Finds.exists_text (h : v.Finds machine settings summary) (hformat : v.output = some Report.jsonLabel) :
    ∃ text, ((Command.validate v).trace machine).2 = [text] ∧ Json.parse text = .ok summary.toJson ∧
      IsTruthful summary.toJson (Command.isGiven v.mutation || !settings.mutation.isEmptyLike) v.failsOnMismatch
        ((Command.validate v).trace machine).1.exitCode := by
  have htrace := trace_of_programs h (isForPrograms_format hformat settings)
  refine ⟨_, by rw [htrace], h.parse_report, ?_⟩
  rw [htrace, ← isEmptyLike_mutation]
  exact Report.isTruthful_toJson h.fits v.failsOnMismatch

/-- **The report for programs tells the truth.** A validation that prints it and does not fail prints one text; the text
is read as the report on its findings, in which verdict, sections and errors agree with each other and with the exit
code. -/
theorem exists_truthful_report (hformat : v.output = some Report.jsonLabel)
    (hexit : ((Command.validate v).trace machine).1.exitCode = 0 ∨
      ((Command.validate v).trace machine).1.exitCode = 2) :
    ∃ settings summary text, v.Finds machine settings summary ∧
      ((Command.validate v).trace machine).2 = [text] ∧ Json.parse text = .ok summary.toJson ∧
      IsTruthful summary.toJson (Command.isGiven v.mutation || !settings.mutation.isEmptyLike) v.failsOnMismatch
        ((Command.validate v).trace machine).1.exitCode := by
  obtain ⟨settings, summary, hfinds⟩ := exists_finds hexit
  obtain ⟨text, htext⟩ := hfinds.exists_text hformat
  exact ⟨settings, summary, text, hfinds, htext⟩

/-- The report on a query that is wrong. -/
theorem truthful_report_stray :
    ((Command.validate (strayValidation Report.jsonLabel)).trace (strayMachine (.str "Query.a"))).1.exitCode = 2 ∧
    ∃ settings summary text,
      (strayValidation Report.jsonLabel).Finds (strayMachine (.str "Query.a")) settings summary ∧
      ((Command.validate (strayValidation Report.jsonLabel)).trace (strayMachine (.str "Query.a"))).2 = [text] ∧
      Json.parse text = .ok summary.toJson ∧
      IsTruthful summary.toJson (Command.isGiven (strayValidation Report.jsonLabel).mutation ||
        !settings.mutation.isEmptyLike) (strayValidation Report.jsonLabel).failsOnMismatch
        ((Command.validate (strayValidation Report.jsonLabel)).trace (strayMachine (.str "Query.a"))).1.exitCode := by
  obtain ⟨settings, hfinds⟩ := finds_stray (.str "Query.a") Report.jsonLabel
  have hexit :
      ((Command.validate (strayValidation Report.jsonLabel)).trace (strayMachine (.str "Query.a"))).1.exitCode = 2 := by
    rw [trace_of_programs hfinds (isForPrograms_format rfl settings)]
    rfl
  exact ⟨hexit, exists_truthful_report rfl (.inr hexit)⟩

/-! ## Command lines -/

/-- **The program tells the truth to programs.** Arguments that tell no command print nothing. Those that tell a
validation with the report for programs print one text, unless they fail; and the text is read as the report on the
findings, which tells the truth. -/
theorem truthful_of_arguments (arguments : List String) (machine : Machine) :
    (∀ refusal, Command.ofArguments arguments = .error refusal →
      Command.argumentsTrace arguments machine = ({ exitCode := refusal.exitCode }, [])) ∧
    ∀ v, Command.ofArguments arguments = .ok (.validate v) → v.output = some Report.jsonLabel →
      ((Command.argumentsTrace arguments machine).1.exitCode = 0 ∨
        (Command.argumentsTrace arguments machine).1.exitCode = 2) →
      ∃ settings summary text, v.Finds machine settings summary ∧
        (Command.argumentsTrace arguments machine).2 = [text] ∧ Json.parse text = .ok summary.toJson ∧
        IsTruthful summary.toJson (Command.isGiven v.mutation || !settings.mutation.isEmptyLike) v.failsOnMismatch
          (Command.argumentsTrace arguments machine).1.exitCode := by
  refine ⟨fun _ hrefused => Command.argumentsTrace_of_error hrefused, fun v htold hformat hexit => ?_⟩
  rw [Command.argumentsTrace_of_ok htold] at hexit ⊢
  obtain ⟨settings, summary, hfinds⟩ := exists_finds hexit
  obtain ⟨text, htext⟩ := hfinds.exists_text hformat
  exact ⟨settings, summary, text, hfinds, htext⟩

example : Command.ofArguments ["validate", "f.json", "-q", "q.graphql", "--schema=s.graphql", "--output", "json"] =
    .ok (.validate (strayValidation Report.jsonLabel)) := by decide +kernel

end FixtureCheck.Validation
