import FixtureCheck.Fixture.Assets
import FixtureCheck.Json.Printer
import FixtureCheck.Report.Block

/-!
# Reports

A `Summary` is what a validation found, with the names of what was checked. `Summary.toJson` is the report for programs,
`Summary.blocks` the one for readers.
-/

namespace FixtureCheck.Report

open Fixture (AssetsReport CheckResult OutputResult)

/-- The findings of a validation. -/
structure Summary where
  fixture : String
  query : String
  /-- The place that the schema was taken from. -/
  schema : Json
  report : AssetsReport
  exportName : Json := .null
  target : Json := .null
  queryVariables : Json := .obj []
  deriving Inhabited

/-! ## For programs -/

/-- The report on a check: a check that was not made found nothing and is not valid. -/
def sectionEntries (ran : Bool) (errors : List String) : List (String × Json) := [
  ("ran", .bool ran), ("valid", .bool (ran && errors.isEmpty)), ("errors", .arr (errors.map .str))]

/-- The report on the input of a fixture. -/
def inputSection : Option CheckResult → Json
  | none => .obj (sectionEntries false [])
  | some r => .obj (sectionEntries true r.errors ++ [("aborted", .bool r.aborted)])

/-- The report on the output of a fixture. -/
def outputSection : Option OutputResult → Json
  | none => .obj (sectionEntries false [])
  | some r =>
    .obj (sectionEntries true r.errors ++
      [("mutation", r.mutation), ("resultParameterType", r.type.elim .null .str)])

/-- The report for programs. -/
def Summary.toJson (s : Summary) : Json :=
  .obj [
    ("fixture", .str s.fixture), ("query", .str s.query), ("schema", s.schema), ("export", s.exportName),
    ("target", s.target), ("inputQueryVariables", s.queryVariables), ("valid", .bool s.report.isValid),
    ("inputQuery", .obj (sectionEntries true s.report.queryErrors)), ("fixtureInput", inputSection s.report.input),
    ("fixtureOutput", outputSection s.report.output)]

/-! ## For readers -/

/-- How a check ended. -/
def status (errors : List String) : String :=
  if errors.isEmpty then "[green]✓[/green] valid" else s!"[red]✖[/red] {errors.length} error(s)"

/-- Less important text. -/
def dimmed (text : String) : String := s!"[dim]{text}[/dim]"

/-- The row about a part of the fixture, if it has that part. -/
def partRow (name : String) (value : Json) : Except ReportError (List (String × String)) :=
  if value.isEmptyLike then .ok []
  else
    match value with
    | .str text => .ok [(name, dimmed (escape text))]
    | value => .error (.notText value.kindName)

/-- The table of what was checked and how that ended. -/
def Summary.overview (s : Summary) : Except ReportError Block := do
  let target ← partRow "Target" s.target
  let exportName ← partRow "Export" s.exportName
  let checked := [("Fixture", dimmed s.fixture), ("Query", dimmed s.query), ("Schema", dimmed s.schema.asText)]
  let input := s.report.input.elim (dimmed "skipped") fun r => status r.errors
  let output := s.report.output.elim (dimmed "skipped (no mutation)") fun r => status r.errors
  return .table (checked ++ target ++ exportName ++
    [("Input query", status s.report.queryErrors), ("Fixture input", input), ("Fixture output", output)])

/-- The errors that a check found, under a title; nothing if there are none. -/
def errorBlocks (title : String) (errors : List String) : List Block :=
  if errors.isEmpty then []
  else .line s!"\n[bold cyan]{title}:[/bold cyan]\n" :: errors.map fun e => .line ("  [red]✖[/red] " ++ escape e)

/-- The line about a fixture without errors. -/
def successLine : Block := .line "\n[green]✓ Fixture matches query[/green]"

/-- The blocks after the overview. -/
def Summary.details (s : Summary) : List Block :=
  errorBlocks "Input query" s.report.queryErrors ++
    s.report.input.elim [] (fun r => errorBlocks "Fixture input" r.errors) ++
    s.report.output.elim [] (fun r => errorBlocks s!"Fixture output ({r.mutation.asText})" r.errors) ++
    (if s.report.isValid then [successLine] else []) ++ [.line ""]

/-- The report for readers. -/
def Summary.blocks (s : Summary) : List (Except ReportError Block) :=
  .ok (.line "\n[bold cyan]Fixture Validation Summary[/bold cyan]\n") :: s.overview :: s.details.map .ok

/-! ## Printing -/

/-- The label of the report for programs. Any other label is that of the report for readers. -/
def jsonLabel : String := "json"

/-- Is the report for programs asked for? -/
def isForPrograms : Json → Bool
  | .str label => label == jsonLabel
  | _ => false

/-- Prints the report in the format of a label. -/
def Summary.print {m : Type → Type} [Monad m] [Host m] (s : Summary) (format : Json) : ExceptT ReportError m Unit :=
  if isForPrograms format then Host.print (s.toJson.indented ++ "\n") else printBlocks s.blocks

end FixtureCheck.Report
