import FixtureCheck.Proofs.Json.Proper
import FixtureCheck.Proofs.Walk.Steps
import FixtureCheck.Report.Summary

/-!
# What a report says

The verdict on a validation comes from several places: the checks that were made (`AssetsReport.Fits`), the sections of
the report and its head. `isTruthful_toJson` says that the report for programs has them agree, whatever was found, and
`isProper_toJson` that it is a value that can be read back.
-/

namespace FixtureCheck

/-! ## Which checks are made -/

namespace Fixture

variable {schema : GraphQL.Schema} {document : GraphQL.Document} {fixture : Json} {name : Option String}

/-- A comparison that is cut off finds at least the reason for that. -/
theorem errors_ne_nil_of_aborted {result : CheckResult} (h : check schema document fixture name = .ok result)
    (ha : result.aborted = true) : result.errors ≠ [] := by
  obtain ⟨operation, root, -, rfl⟩ := check_eq_ok_iff.1 h
  cases hw : (walkOperation schema root operation fixture).outcome with
  | error cause =>
    have hlast := (ofWalk_error hw).2
    intro hnil
    rw [hnil] at hlast
    cases hlast
  | ok tree =>
    rw [ofWalk_ok hw] at ha
    cases ha

theorem mutation_of_checkOutput {output mutation parameter : Json} {result : OutputResult}
    (h : checkOutput schema output mutation parameter = .ok result) : result.mutation = mutation := by
  unfold checkOutput at h
  obtain ⟨type, -, h⟩ := bind_eq_ok_iff.1 h
  split at h
  · cases h
    rfl
  · cases h
    rfl

/-- **Do results come from the checks that were to be made?** -/
structure AssetsReport.Fits (r : AssetsReport) (request : Request) : Prop where
  input : r.input.isSome = true ↔ r.queryErrors = []
  output : r.output.isSome = true ↔ request.mutation.isEmptyLike = false
  aborted : ∀ result ∈ r.input, result.aborted = true → result.errors ≠ []
  mutation : ∀ result ∈ r.output, result.mutation = request.mutation

variable {data : FixtureData} {request : Request}

/-- The comparison of the input, if the query is right. -/
def askedInput (schema : GraphQL.Schema) (data : FixtureData) (document : GraphQL.Document) (request : Request)
    (queryErrors : List String) : Except AssetsError (Option CheckResult) :=
  if queryErrors.isEmpty then some <$> (check schema document data.input request.operation).mapError .check
  else pure none

/-- The comparison of the output, if a mutation is named. -/
def askedOutput (schema : GraphQL.Schema) (data : FixtureData) (request : Request) :
    Except AssetsError (Option OutputResult) :=
  if request.mutation.isEmptyLike then pure none
  else some <$> (checkOutput schema data.expectedOutput request.mutation request.parameter).mapError .output

theorem checkAssets_eq (schema : GraphQL.Schema) (data : FixtureData) (document : GraphQL.Document)
    (request : Request) : checkAssets schema data document request = (do
      let queryErrors ← (GraphQL.validate schema document).mapError .validation
      let input ← askedInput schema data document request queryErrors
      let output ← askedOutput schema data request
      return ⟨queryErrors, input, output⟩) := by
  unfold checkAssets askedInput askedOutput
  refine bind_congr fun queryErrors => ?_
  split <;> split <;> rfl

theorem askedInput_eq_ok {queryErrors : List String} {input : Option CheckResult}
    (h : askedInput schema data document request queryErrors = .ok input) :
    (input.isSome = true ↔ queryErrors = []) ∧ ∀ result ∈ input, result.aborted = true → result.errors ≠ [] := by
  unfold askedInput at h
  split at h
  next hvalid =>
    obtain ⟨result, hresult, rfl⟩ := map_eq_ok_iff.1 h
    refine ⟨by simpa using hvalid, ?_⟩
    rintro _ ⟨⟩
    exact errors_ne_nil_of_aborted (mapError_eq_ok_iff.1 hresult)
  next hinvalid =>
    cases h
    exact ⟨by simpa using hinvalid, by simp⟩

theorem askedOutput_eq_ok {output : Option OutputResult} (h : askedOutput schema data request = .ok output) :
    (output.isSome = true ↔ request.mutation.isEmptyLike = false) ∧
      ∀ result ∈ output, result.mutation = request.mutation := by
  unfold askedOutput at h
  split at h
  next hempty =>
    cases h
    exact ⟨by simp [hempty], by simp⟩
  next hnamed =>
    obtain ⟨result, hresult, rfl⟩ := map_eq_ok_iff.1 h
    refine ⟨by simpa using hnamed, ?_⟩
    rintro _ ⟨⟩
    exact mutation_of_checkOutput (mapError_eq_ok_iff.1 hresult)

theorem fits_of_checkAssets {r : AssetsReport} (h : checkAssets schema data document request = .ok r) :
    r.Fits request := by
  rw [checkAssets_eq] at h
  obtain ⟨queryErrors, -, h⟩ := bind_eq_ok_iff.1 h
  obtain ⟨input, hinput, h⟩ := bind_eq_ok_iff.1 h
  obtain ⟨output, houtput, h⟩ := bind_eq_ok_iff.1 h
  cases h
  obtain ⟨hran, haborted⟩ := askedInput_eq_ok hinput
  obtain ⟨hran', hmutation⟩ := askedOutput_eq_ok houtput
  exact ⟨hran, hran', haborted, hmutation⟩

end Fixture

/-! ## What the report says -/

namespace Report

open Fixture (AssetsReport)
open Json (IsProper)

/-- **Does a report hold a truth value under some keys?** -/
def Says (report : Json) (keys : List String) (b : Bool) : Prop := report.get? (keys.map .key) = some (.bool b)

/-- What a report lists as the errors of a section. -/
def errorsIn (report : Json) (name : String) : Option Json := report.get? [.key name, .key "errors"]

/-- The names of the sections of a report. -/
def sectionNames : List String := ["inputQuery", "fixtureInput", "fixtureOutput"]

/-- **Does a report tell the truth?** Its verdict is that of its sections, the sections are those of the checks that
were to be made, and the exit code tells the verdict where it is to tell it. -/
structure IsTruthful (report : Json) (hasMutation failsOnMismatch : Bool) (exitCode : Nat) : Prop where
  flags : ∀ name ∈ sectionNames, ∃ ran valid, Says report [name, "ran"] ran ∧ Says report [name, "valid"] valid
  valid : Says report ["valid"] true ↔
    ∀ name ∈ sectionNames, Says report [name, "ran"] true → Says report [name, "valid"] true
  input : Says report ["fixtureInput", "ran"] true ↔ errorsIn report "inputQuery" = some (.arr [])
  output : Says report ["fixtureOutput", "ran"] true ↔ hasMutation = true
  aborted : Says report ["fixtureInput", "aborted"] true → Says report ["fixtureInput", "valid"] false ∧
    ∃ e errors, errorsIn report "fixtureInput" = some (.arr (e :: errors))
  exitCode : exitCode = 2 ↔ Says report ["valid"] false ∧ failsOnMismatch = true

/-- The errors of the checks that sections are about; none for a check that was not made. -/
def errorsOf (r : AssetsReport) : List (String × Option (List String)) := [
  ("inputQuery", some r.queryErrors),
  ("fixtureInput", r.input.map (·.errors)),
  ("fixtureOutput", r.output.map (·.errors))]

variable {s : Summary} {name : String} {errors : Option (List String)}

theorem says_verdict (s : Summary) (b : Bool) : Says s.toJson ["valid"] b ↔ s.report.isValid = b := by
  simp [Says, Json.get?, Summary.toJson, Json.lookup]

/-- A section says first whether its check was made and what that found. -/
theorem get?_section (h : (name, errors) ∈ errorsOf s.report) : ∃ more, ∀ path,
    s.toJson.get? (.key name :: path) =
      (Json.obj (sectionEntries errors.isSome (errors.getD []) ++ more)).get? path := by
  simp only [errorsOf, List.mem_cons, Prod.mk.injEq, List.not_mem_nil, or_false] at h
  rcases h with ⟨rfl, rfl⟩ | ⟨rfl, rfl⟩ | ⟨rfl, rfl⟩
  · exact ⟨[], fun path => by simp [Json.get?, Summary.toJson, Json.lookup]⟩
  · cases hi : s.report.input with
    | none => exact ⟨[], fun path => by simp [Json.get?, Summary.toJson, Json.lookup, inputSection, hi]⟩
    | some result =>
      refine ⟨[("aborted", .bool result.aborted)], fun path => ?_⟩
      simp [Json.get?, Summary.toJson, Json.lookup, inputSection, hi]
  · cases ho : s.report.output with
    | none => exact ⟨[], fun path => by simp [Json.get?, Summary.toJson, Json.lookup, outputSection, ho]⟩
    | some result =>
      refine ⟨[("mutation", result.mutation), ("resultParameterType", result.type.elim .null .str)], fun path => ?_⟩
      simp [Json.get?, Summary.toJson, Json.lookup, outputSection, ho]

theorem says_ran (h : (name, errors) ∈ errorsOf s.report) (b : Bool) :
    Says s.toJson [name, "ran"] b ↔ errors.isSome = b := by
  obtain ⟨more, hsection⟩ := get?_section h
  simp [Says, hsection, Json.get?, Json.lookup, sectionEntries]

theorem says_section_valid (h : (name, errors) ∈ errorsOf s.report) (b : Bool) :
    Says s.toJson [name, "valid"] b ↔ errors.any (·.isEmpty) = b := by
  obtain ⟨more, hsection⟩ := get?_section h
  cases errors <;> simp [Says, hsection, Json.get?, Json.lookup, sectionEntries]

theorem errorsIn_toJson (h : (name, errors) ∈ errorsOf s.report) :
    errorsIn s.toJson name = some (.arr ((errors.getD []).map .str)) := by
  obtain ⟨more, hsection⟩ := get?_section h
  simp [errorsIn, hsection, Json.get?, Json.lookup, sectionEntries]

theorem says_aborted (s : Summary) : Says s.toJson ["fixtureInput", "aborted"] true ↔
    ∃ result, s.report.input = some result ∧ result.aborted = true := by
  cases hi : s.report.input <;> simp [Says, Json.get?, Summary.toJson, Json.lookup, inputSection, sectionEntries, hi]

/-- Nothing is wrong if no check that was made found an error. -/
theorem isValid_iff (r : AssetsReport) :
    r.isValid = true ↔ ∀ check ∈ errorsOf r, check.2.isSome = true → check.2.any (·.isEmpty) = true := by
  obtain ⟨queryErrors, input, output⟩ := r
  cases input <;> cases output <;>
    simp [AssetsReport.isValid, errorsOf, Fixture.CheckResult.isValid, Fixture.OutputResult.isValid, and_assoc]

/-- **The report tells the truth about what was found.** -/
theorem isTruthful_toJson {request : Fixture.Request} (h : s.report.Fits request) (failsOnMismatch : Bool) :
    IsTruthful s.toJson (!request.mutation.isEmptyLike) failsOnMismatch
      (if failsOnMismatch && !s.report.isValid then 2 else 0) := by
  have hnamed : ∀ name ∈ sectionNames, ∃ errors, (name, errors) ∈ errorsOf s.report := by
    simp [sectionNames, errorsOf]
  have hnames : ∀ check ∈ errorsOf s.report, check.1 ∈ sectionNames := by
    simp [sectionNames, errorsOf]
  have hquery : ("inputQuery", some s.report.queryErrors) ∈ errorsOf s.report := by simp [errorsOf]
  have hinput : ("fixtureInput", s.report.input.map (·.errors)) ∈ errorsOf s.report := by simp [errorsOf]
  have houtput : ("fixtureOutput", s.report.output.map (·.errors)) ∈ errorsOf s.report := by simp [errorsOf]
  constructor
  case flags =>
    intro name hname
    obtain ⟨errors, he⟩ := hnamed name hname
    exact ⟨_, _, (says_ran he _).2 rfl, (says_section_valid he _).2 rfl⟩
  case valid =>
    rw [says_verdict, isValid_iff]
    constructor
    · intro hall name hname hran
      obtain ⟨errors, he⟩ := hnamed name hname
      exact (says_section_valid he true).2 (hall _ he ((says_ran he true).1 hran))
    · intro hall check hc hran
      exact (says_section_valid hc true).1 (hall _ (hnames _ hc) ((says_ran hc true).2 hran))
  case input =>
    rw [says_ran hinput, errorsIn_toJson hquery, Option.isSome_map, h.input]
    simp
  case output =>
    rw [says_ran houtput, Option.isSome_map, h.output]
    simp
  case aborted =>
    intro haborted
    obtain ⟨result, hresult, ha⟩ := (says_aborted s).1 haborted
    obtain ⟨e, errors, he⟩ := List.exists_cons_of_ne_nil (h.aborted result hresult ha)
    rw [says_section_valid hinput, errorsIn_toJson hinput, hresult]
    simp [he]
  case exitCode =>
    rw [says_verdict]
    cases failsOnMismatch <;> cases s.report.isValid <;> simp

/-! ## Reading the report back -/

theorem isProper_sectionEntries (ran : Bool) (errors : List String) :
    ∀ entry ∈ sectionEntries ran errors, entry.2.IsProper := by
  have herrors : IsProper (.arr (errors.map .str)) := by
    refine .arr fun item hi => ?_
    obtain ⟨e, -, rfl⟩ := List.mem_map.1 hi
    exact .str e
  simp [sectionEntries, IsProper.bool, herrors]

theorem isProper_inputSection (input : Option Fixture.CheckResult) : (inputSection input).IsProper := by
  cases input with
  | none => exact .obj (by simp [sectionEntries]) (isProper_sectionEntries _ _)
  | some result =>
    refine .obj (by simp [sectionEntries]) fun entry he => ?_
    rcases List.mem_append.1 he with he | he
    · exact isProper_sectionEntries _ _ entry he
    · rw [List.mem_singleton.1 he]
      exact .bool _

theorem isProper_outputSection {output : Option Fixture.OutputResult}
    (h : ∀ result ∈ output, result.mutation.IsProper) : (outputSection output).IsProper := by
  cases output with
  | none => exact .obj (by simp [sectionEntries]) (isProper_sectionEntries _ _)
  | some result =>
    have htype : (result.type.elim .null .str : Json).IsProper := by
      cases result.type with
      | none => exact .null
      | some text => exact .str text
    refine .obj (by simp [sectionEntries]) fun entry he => ?_
    rcases List.mem_append.1 he with he | he
    · exact isProper_sectionEntries _ _ entry he
    · rcases List.mem_pair.1 he with rfl | rfl
      · exact h result rfl
      · exact htype

/-- **Does a summary show proper values?** -/
structure Summary.IsProper (s : Summary) : Prop where
  schema : s.schema.IsProper
  exportName : s.exportName.IsProper
  target : s.target.IsProper
  queryVariables : s.queryVariables.IsProper
  mutation : ∀ result ∈ s.report.output, result.mutation.IsProper

/-- **The report is a value that can be read back.** -/
theorem isProper_toJson (h : s.IsProper) : s.toJson.IsProper := by
  refine .obj (by simp) ?_
  simp only [List.forall_mem_cons, List.not_mem_nil, false_imp_iff, implies_true, and_true]
  have hquery : IsProper (.obj (sectionEntries true s.report.queryErrors)) :=
    .obj (by simp [sectionEntries]) (isProper_sectionEntries _ _)
  exact ⟨.str _, .str _, h.schema, h.exportName, h.target, h.queryVariables, .bool _, hquery,
    isProper_inputSection _, isProper_outputSection h.mutation⟩

end Report

end FixtureCheck
