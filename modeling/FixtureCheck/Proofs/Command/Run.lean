import FixtureCheck.Command.Run
import FixtureCheck.Proofs.Command.Loading
import FixtureCheck.Proofs.Json.LineEnds
import FixtureCheck.Proofs.Json.Written
import FixtureCheck.Proofs.Report.Console
import FixtureCheck.Proofs.Report.Truth
import FixtureCheck.Proofs.SchemaStore.Profile

/-!
# What commands come to

A `trace` is how a command ends and what it prints. Arguments that tell a command come to what the command comes to
(`argumentsTrace_of_ok`); others print nothing (`argumentsTrace_of_error`).

A validation first comes to its findings (`Validation.Finds`), without printing anything (`loads_findings`). Then it
prints its report (`trace_of_programs`, `trace_of_readers`), which may break off with a line about that
(`trace_of_broken_off`). Without findings it only prints a line about its failure (`trace_of_not_found`).
-/

namespace FixtureCheck

open Command (Failure Outcome)
open Report (Summary)

variable {v : Validation} {machine s : Machine} {settings : Settings} {summary : Summary}

/-! ## Commands -/

namespace Command

/-- **What a command comes to on a machine**: how it ends, and the texts that it prints. -/
def trace (command : Command) (machine : Machine) : Outcome × List String :=
  let (ending, after) := ((command.run : StateM Machine Outcome).run machine : Id _)
  (ending, after.printed.drop machine.printed.length)

/-- How a command ends that fails. -/
def failed (command : Command) (failure : Failure) : Outcome :=
  { exitCode := 1, raised := if command.debugs then some failure else none }

theorem trace_of_run {command : Command} {ending : Outcome} {texts : List String}
    (h : ((command.run : StateM Machine Outcome).run machine : Id _) = (ending, s))
    (hp : s.printed = machine.printed ++ texts) : command.trace machine = (ending, texts) := by
  unfold trace
  rw [h]
  dsimp only
  rw [hp, List.drop_left]

theorem trace_of_ok {command : Command} {exitCode : Nat} {texts : List String}
    (h : outcome command.perform machine = (.ok exitCode, s)) (hp : s.printed = machine.printed ++ texts) :
    command.trace machine = ({ exitCode }, texts) := by
  refine trace_of_run (s := s) ?_ hp
  unfold run
  rw [StateT.run_bind, show ((command.perform.run : StateM Machine _).run machine : Id _) = _ from h]
  rfl

/-- A command that fails prints a line about that, behind what it has printed before. -/
theorem trace_of_error {command : Command} {failure : Failure} {texts : List String} {text : String}
    (h : outcome command.perform machine = (.error failure, s)) (hp : s.printed = machine.printed ++ texts)
    (ht : failure.block.text = .ok text) : command.trace machine = (command.failed failure, texts ++ [text]) := by
  refine trace_of_run (s := { s with printed := s.printed ++ [text] }) ?_ ?_
  · unfold run
    rw [StateT.run_bind, show ((command.perform.run : StateM Machine _).run machine : Id _) = _ from h]
    show (StateT.run _ s : Id _) = _
    dsimp only
    rw [ht]
    rfl
  · rw [← List.append_assoc, ← hp]

/-! ## Arguments -/

variable {arguments : List String} {command : Command} {refusal : Refusal}

/-- **What arguments come to on a machine**: how the program ends, and the texts that it prints. -/
def argumentsTrace (arguments : List String) (machine : Machine) : Outcome × List String :=
  let (ending, after) := ((runArguments arguments : StateM Machine Outcome).run machine : Id _)
  (ending, after.printed.drop machine.printed.length)

theorem argumentsTrace_of_ok (h : ofArguments arguments = .ok command) :
    argumentsTrace arguments machine = command.trace machine := by
  unfold argumentsTrace runArguments
  rw [h]
  rfl

/-- Arguments that tell no command leave the machine as it is. -/
theorem runArguments_of_error (h : ofArguments arguments = .error refusal) :
    ((runArguments arguments : StateM Machine Outcome).run machine : Id _) =
      ({ exitCode := refusal.exitCode }, machine) := by
  unfold runArguments
  rw [h]
  rfl

/-- **Arguments that tell no command print nothing.** -/
theorem argumentsTrace_of_error (h : ofArguments arguments = .error refusal) :
    argumentsTrace arguments machine = ({ exitCode := refusal.exitCode }, []) := by
  unfold argumentsTrace
  rw [runArguments_of_error h]
  dsimp only
  rw [List.drop_length]

end Command

/-! ## Findings -/

namespace Validation

/-- What a validation comes to before it prints: the settings and the summary of what it found. -/
def findings (v : Validation) : ExceptT Failure (StateM Machine) (Settings × Summary) := do
  let settings ← (Settings.load v.settings).adapt .settings
  let summary ← v.summary settings
  return (settings, summary)

/-- **Does a validation come to some findings on a machine?** -/
def Finds (v : Validation) (machine : Machine) (settings : Settings) (summary : Summary) : Prop :=
  (outcome v.findings machine).1 = .ok (settings, summary)

theorem perform_eq (v : Validation) : (v.perform : ExceptT Failure (StateM Machine) Nat) = (do
    let found ← v.findings
    (found.2.print (v.format found.1)).adapt .report
    return v.exitCode found.2) := by
  simp [perform, findings]

theorem loads_summary (v : Validation) (hm : settings.mutation.IsProper) :
    Loads (v.summary settings : ExceptT Failure (StateM Machine) Summary)
      fun summary => summary.IsProper ∧ summary.report.Fits (v.checkRequest settings) := by
  have hrequest : (v.checkRequest settings).mutation.IsProper := by
    show (Command.orSetting v.mutation settings.mutation).IsProper
    unfold Command.orSetting
    split
    · exact hm
    · exact hm
    · exact .str _
  unfold summary
  refine .bind ((SchemaStore.loads_schema _ _).adapt _) fun profile hprofile => ?_
  refine .bind (P := fun _ => True) (.ofExcept fun _ _ => trivial) fun schema _ => ?_
  refine .bind ((Fixture.loads_query _).adapt _) fun query _ => ?_
  refine .bind ((Fixture.loads_fixture _).adapt _) fun fixture hfixture => ?_
  refine .bind (.ofExcept fun report hreport => Fixture.fits_of_checkAssets (mapError_eq_ok_iff.1 hreport))
    fun report hfits => .pure ⟨⟨hprofile, hfixture.exportName, hfixture.target, hfixture.queryVariables, ?_⟩, hfits⟩
  intro result hresult
  rw [hfits.mutation result hresult]
  exact hrequest

/-- **A validation comes to its findings without printing anything.** -/
theorem loads_findings (v : Validation) :
    Loads v.findings fun found => found.2.IsProper ∧ found.2.report.Fits (v.checkRequest found.1) :=
  .bind ((Settings.loads_settings _).adapt _) fun _ hm => .bind (loads_summary v hm) fun _ h => .pure h

/-- A validation that comes to its findings prints the report on them. -/
theorem outcome_perform (h : outcome v.findings machine = (.ok (settings, summary), s)) :
    outcome v.perform machine = match outcome (summary.print (v.format settings)) s with
      | (.ok _, s') => (.ok (v.exitCode summary), s')
      | (.error e, s') => (.error (.report e), s') := by
  rw [perform_eq, outcome_bind, h]
  dsimp only
  rw [outcome_bind, outcome_adapt]
  rcases outcome (summary.print (v.format settings)) s with ⟨e | a, s'⟩
  · rfl
  · rfl

theorem Finds.outcome_eq (h : v.Finds machine settings summary) :
    ∃ s, outcome v.findings machine = (.ok (settings, summary), s) ∧ s.printed = machine.printed :=
  ⟨(outcome v.findings machine).2, Prod.ext h rfl, v.loads_findings.printed machine⟩

theorem Finds.isProper (h : v.Finds machine settings summary) : summary.IsProper :=
  (v.loads_findings.result machine _ h).1

theorem Finds.fits (h : v.Finds machine settings summary) : summary.report.Fits (v.checkRequest settings) :=
  (v.loads_findings.result machine _ h).2

/-- The report for programs is read as what it shows. -/
theorem Finds.parse_report (h : v.Finds machine settings summary) :
    Json.parse (summary.toJson.indented ++ "\n") = .ok summary.toJson :=
  (Report.isProper_toJson h.isProper).parse_render_append Json.isBlank_indentedLayout "\n" (by simp [Json.isBlank])

/-- The report for programs is printed as one text. -/
theorem trace_of_programs (h : v.Finds machine settings summary)
    (hformat : Report.isForPrograms (v.format settings) = true) :
    (Command.validate v).trace machine = ({ exitCode := v.exitCode summary }, [summary.toJson.indented ++ "\n"]) := by
  obtain ⟨s, hs, hp⟩ := h.outcome_eq
  have hprint : outcome (summary.print (v.format settings)) s =
      (.ok (), { s with printed := s.printed ++ [summary.toJson.indented ++ "\n"] }) := by
    unfold Summary.print
    rw [if_pos hformat]
    rfl
  refine Command.trace_of_ok (s := { s with printed := _ }) ?_ (congrArg (· ++ _) hp)
  show outcome v.perform machine = _
  rw [outcome_perform hs, hprint]

/-- What a report for readers prints before it ends or fails. -/
theorem outcome_perform_of_readers (h : v.Finds machine settings summary)
    (hformat : Report.isForPrograms (v.format settings) = false) : ∃ s,
      s.printed = machine.printed ++ (Report.textsOf summary.blocks).1 ∧
      outcome v.perform machine = match (Report.textsOf summary.blocks).2 with
        | .ok _ => (.ok (v.exitCode summary), s)
        | .error e => (.error (.report e), s) := by
  obtain ⟨s, hs, hp⟩ := h.outcome_eq
  refine ⟨{ s with printed := s.printed ++ (Report.textsOf summary.blocks).1 }, congrArg (· ++ _) hp, ?_⟩
  have hprint : outcome (summary.print (v.format settings)) s = ((Report.textsOf summary.blocks).2,
      { s with printed := s.printed ++ (Report.textsOf summary.blocks).1 }) := by
    unfold Summary.print
    rw [if_neg (by simp [hformat]), Report.outcome_printBlocks]
  rw [outcome_perform hs, hprint]
  cases (Report.textsOf summary.blocks).2 <;> rfl

/-- The report for readers is printed block by block. -/
theorem trace_of_readers (h : v.Finds machine settings summary)
    (hformat : Report.isForPrograms (v.format settings) = false) (hend : (Report.textsOf summary.blocks).2 = .ok ()) :
    (Command.validate v).trace machine = ({ exitCode := v.exitCode summary }, (Report.textsOf summary.blocks).1) := by
  obtain ⟨s, hp, hperform⟩ := outcome_perform_of_readers h hformat
  rw [hend] at hperform
  exact Command.trace_of_ok hperform hp

/-- A report that cannot be printed to its end makes the validation fail. -/
theorem trace_of_broken_off {e : Report.ReportError} (h : v.Finds machine settings summary)
    (hformat : Report.isForPrograms (v.format settings) = false)
    (hend : (Report.textsOf summary.blocks).2 = .error e) : ∃ rest, (Command.validate v).trace machine =
      ((Command.validate v).failed (.report e),
        (Report.textsOf summary.blocks).1 ++ [String.ofList ('E' :: rest)]) := by
  obtain ⟨s, hp, hperform⟩ := outcome_perform_of_readers h hformat
  rw [hend] at hperform
  obtain ⟨rest, htext⟩ := Report.text_of_failure (Failure.report e).message
  exact ⟨rest, Command.trace_of_error hperform hp htext⟩

/-- A validation that does not come to findings says why. -/
theorem trace_of_not_found {failure : Failure} (h : (outcome v.findings machine).1 = .error failure) :
    ∃ rest, (Command.validate v).trace machine =
      ((Command.validate v).failed failure, [String.ofList ('E' :: rest)]) := by
  have hperform : outcome (Command.validate v).perform machine = (.error failure, (outcome v.findings machine).2) := by
    show outcome v.perform machine = _
    rw [perform_eq, outcome_bind]
    rcases hfindings : outcome v.findings machine with ⟨found, s⟩
    rw [hfindings] at h
    obtain rfl : found = .error failure := h
    rfl
  have hp : (outcome v.findings machine).2.printed = machine.printed ++ [] := by
    simp [v.loads_findings.printed machine]
  obtain ⟨rest, htext⟩ := Report.text_of_failure failure.message
  exact ⟨rest, Command.trace_of_error hperform hp htext⟩

/-! ## A query that is wrong -/

/-- A fixture with a target. -/
def targetedFixture (target : Json) : Json :=
  .obj [("payload", .obj [("input", .obj [("a", .int 1)]), ("target", target)])]

/-- A machine with a fixture, a schema, and a query that spreads a fragment that it does not define. -/
def strayMachine (target : Json) : Machine where
  files := {
    files := [
      (["s.graphql"], "type Query{a:Int}"),
      (["q.graphql"], "{...b}"),
      (["f.json"], (targetedFixture target).indented)] }

/-- The validation of what is on that machine, with a report in a format. -/
def strayValidation (format : String) : Validation where
  fixture := "f.json"
  query := "q.graphql"
  schema := some "s.graphql"
  output := some format

/-- What that validation finds. -/
def straySummary (target : Json) : Summary where
  fixture := "f.json"
  query := "q.graphql"
  schema := .str "file://s.graphql"
  report := ⟨["Unknown fragment 'b'."], none, none⟩
  target := target

variable {target : Json}

theorem outcome_settings_stray (target : Json) : ∃ settings : Settings, settings.mutation = .null ∧
    outcome (Settings.load none) (strayMachine target) = (.ok settings, strayMachine target) := by
  obtain ⟨usual, husual, htext⟩ : ∃ usual, Settings.usualPath (.ofText "home") = .ok usual ∧
      usual.text = "home/.graphql-fixture-validator/config.yaml" := by
    have h : (Settings.usualPath (.ofText "home")).toOption.map (·.text) =
        some "home/.graphql-fixture-validator/config.yaml" := by decide +kernel
    obtain ⟨usual, husual, htext⟩ := Option.map_eq_some_iff.1 h
    exact ⟨usual, eq_ok_of_toOption husual, htext⟩
  obtain ⟨kept, hkept⟩ : ∃ kept, pathOf (.ofText "home") (.str defaultKeptSchemas) = .ok kept :=
    exists_of_isSome_toOption (by decide +kernel)
  have hdefaults : Settings.ofEntries (.ofText "home") [] =
      .ok ⟨.null, .null, .null, .str "result", kept, .str "console"⟩ := by
    unfold Settings.ofEntries
    simp [Json.lookup, hkept, Json.isEmptyLike, ok_bind]
  have hload := Settings.outcome_load_of_absent (s := strayMachine target) husual (by rw [htext]; rfl)
  exact ⟨_, rfl, hload.trans (by rw [show (strayMachine target).home = .ofText "home" from rfl, hdefaults])⟩

theorem fixture_stray (ht : target.IsProper) :
    Fixture.FixtureData.ofText (String.ofList (unifyLineEnds (targetedFixture target).indented.toList)) =
      .ok { input := .obj [("a", .int 1)], target } := by
  have hinput : Json.IsProper (.obj [("a", .int 1)]) := .obj (by simp) (by simp [Json.IsProper.int])
  have hpayload : Json.IsProper (.obj [("input", .obj [("a", .int 1)]), ("target", target)]) :=
    .obj (by simp) (by simp [hinput, ht])
  have hproper : (targetedFixture target).IsProper := .obj (by simp) (by simp [hpayload])
  rw [Json.unifyLineEnds_indented hproper, Fixture.FixtureData.ofText, Json.indented,
    hproper.parse_render Json.isBlank_indentedLayout]
  rfl

/-- The query is refused under the schema. -/
theorem validate_stray : ∃ schema document, GraphQL.schemaOfText "type Query{a:Int}" = .ok schema ∧
    GraphQL.parseDocument "{...b}" = .ok document ∧
    GraphQL.validate schema document = .ok ["Unknown fragment 'b'."] := by
  have h : ((GraphQL.schemaOfText "type Query{a:Int}").toOption.bind fun schema =>
      (GraphQL.parseDocument "{...b}").toOption.bind fun document => (GraphQL.validate schema document).toOption) =
        some ["Unknown fragment 'b'."] := by decide +kernel
  obtain ⟨schema, hschema, h⟩ := Option.bind_eq_some_iff.1 h
  obtain ⟨document, hdocument, h⟩ := Option.bind_eq_some_iff.1 h
  exact ⟨schema, document, eq_ok_of_toOption hschema, eq_ok_of_toOption hdocument, eq_ok_of_toOption h⟩

theorem outcome_summary_stray (ht : target.IsProper) (format : String) (hm : settings.mutation = .null) :
    outcome ((strayValidation format).summary settings) (strayMachine target) =
      (.ok (straySummary target), strayMachine target) := by
  obtain ⟨schema, document, hschema, hdocument, hvalidate⟩ := validate_stray
  have hload : outcome (SchemaStore.load settings.keptSchemas ((strayValidation format).schemaRequest settings))
      (strayMachine target) = (SchemaStore.readProfile (strayMachine target).files "s.graphql"
        (strayMachine target).clock, strayMachine target) :=
    SchemaStore.outcome_load_of_file _ rfl _
  have hprofile : SchemaStore.readProfile (strayMachine target).files "s.graphql" (strayMachine target).clock = _ :=
    SchemaStore.readProfile_of_text rfl (by decide +kernel)
      (show SchemaStore.fileText (strayMachine target).files (Storage.Path.ofText "s.graphql").text =
        .ok "type Query{a:Int}" from rfl)
  have hquery : outcome (Fixture.loadQuery "q.graphql") (strayMachine target) =
      (.ok ⟨"{...b}", document⟩, strayMachine target) := Fixture.outcome_loadQuery rfl rfl (by decide) hdocument
  have hfixture : outcome (Fixture.loadFixture "f.json") (strayMachine target) =
      (.ok { input := .obj [("a", .int 1)], target }, strayMachine target) :=
    Fixture.outcome_loadFixture rfl (fixture_stray ht)
  have hchecks : Fixture.checkAssets schema { input := .obj [("a", .int 1)], target } document
      ((strayValidation format).checkRequest settings) = .ok ⟨["Unknown fragment 'b'."], none, none⟩ := by
    have hmutation : ((strayValidation format).checkRequest settings).mutation.isEmptyLike = true := by
      show settings.mutation.isEmptyLike = true
      rw [hm]
      rfl
    unfold Fixture.checkAssets
    rw [hvalidate]
    simp [Except.mapError, ok_bind, hmutation]
    rfl
  unfold summary
  rw [outcome_bind, outcome_adapt, hload, hprofile]
  dsimp only [Except.mapError]
  rw [outcome_bind, outcome_ofExcept, SchemaStore.Profile.build, SchemaStore.Profile.schema_of_text rfl, hschema]
  dsimp only [Except.mapError]
  rw [outcome_bind, outcome_adapt, show (strayValidation format).query = "q.graphql" from rfl, hquery]
  dsimp only [Except.mapError]
  rw [outcome_bind, outcome_adapt, show (strayValidation format).fixture = "f.json" from rfl, hfixture]
  dsimp only [Except.mapError]
  rw [outcome_bind, outcome_ofExcept, hchecks]
  rfl

theorem finds_stray (ht : target.IsProper) (format : String) : ∃ settings,
    (strayValidation format).Finds (strayMachine target) settings (straySummary target) := by
  obtain ⟨settings, hmutation, hsettings⟩ := outcome_settings_stray target
  refine ⟨settings, ?_⟩
  unfold Finds findings
  rw [outcome_bind, outcome_adapt, show (strayValidation format).settings = none from rfl, hsettings]
  dsimp only [Except.mapError]
  rw [outcome_bind, outcome_summary_stray ht format hmutation]
  rfl

end Validation

end FixtureCheck
