import FixtureCheck.Command.Basic
import FixtureCheck.Command.Failure

/-!
# Validating a fixture

`Validation.summary` loads the schema, the query and the fixture, in this order, and makes the checks;
`Validation.perform` also prints the report. A fixture that does not match is no failure: the exit code tells it, unless
it was told not to.
-/

namespace FixtureCheck.Validation

open Command (Failure isGiven orSetting)
open Report (Summary)

/-- The schema that is asked for: that of the options, or that of the settings if the options have none. -/
def schemaRequest (v : Validation) (settings : Settings) : SchemaStore.SchemaRequest :=
  if isGiven v.schema || isGiven v.url then { url := v.url.elim .null .str, file := v.schema, token := v.token }
  else
    let file := match settings.schemaFile with
      | .str path => some path
      | _ => none
    { url := settings.url, file, token := v.token }

/-- What is asked of the checks. -/
def checkRequest (v : Validation) (settings : Settings) : Fixture.Request :=
  { mutation := orSetting v.mutation settings.mutation
    parameter := orSetting v.parameter settings.parameter
    operation := v.operation }

/-- The format of the report. -/
def format (v : Validation) (settings : Settings) : Json := orSetting v.output settings.output

/-- The exit code for some findings. -/
def exitCode (v : Validation) (summary : Summary) : Nat :=
  if v.failsOnMismatch && !summary.report.isValid then 2 else 0

variable {m : Type → Type} [Monad m] [Host m]

/-- Loads what is needed and makes the checks. -/
def summary (v : Validation) (settings : Settings) : ExceptT Failure m Summary := do
  let profile ← (SchemaStore.load settings.keptSchemas (v.schemaRequest settings)).adapt .schema
  let schema ← MonadExcept.ofExcept (profile.build.mapError .schema)
  let query ← (Fixture.loadQuery v.query).adapt .files
  let fixture ← (Fixture.loadFixture v.fixture).adapt .files
  let report := Fixture.checkAssets schema fixture query.document (v.checkRequest settings)
  return {
    fixture := v.fixture
    query := v.query
    schema := profile.url
    report := ← MonadExcept.ofExcept (report.mapError (.checks query.text))
    exportName := fixture.exportName
    target := fixture.target
    queryVariables := fixture.queryVariables }

/-- Validates a fixture and prints the report; gives the exit code. -/
def perform (v : Validation) : ExceptT Failure m Nat := do
  let settings ← (Settings.load v.settings).adapt .settings
  let summary ← v.summary settings
  (summary.print (v.format settings)).adapt .report
  return v.exitCode summary

end FixtureCheck.Validation
