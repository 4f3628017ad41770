import FixtureCheck.Fixture.Check
import FixtureCheck.Fixture.Data
import FixtureCheck.Fixture.Output
import FixtureCheck.GraphQL.Validation

/-!
# Checking a query and a fixture together

`checkAssets` checks the query under the schema, the fixture's input if the query has no errors, and the fixture's
output if a mutation is named.
-/

namespace FixtureCheck.Fixture

open GraphQL (Schema Document ValidationFailure)

/-- The results of all checks that were made. -/
structure AssetsReport where
  queryErrors : List String
  input : Option CheckResult
  output : Option OutputResult
  deriving Repr, Inhabited

/-- Is nothing wrong? -/
def AssetsReport.isValid (r : AssetsReport) : Bool :=
  r.queryErrors.isEmpty && r.input.all (·.isValid) && r.output.all (·.isValid)

/-- Why the checks cannot be made. -/
inductive AssetsError where
  | validation (cause : ValidationFailure)
  | check (cause : CheckError)
  | output (cause : OutputFailure)

/-- The message about an error, where `source` is the text of the query. -/
def AssetsError.message (source : String) : AssetsError → String
  | validation cause => cause.message source
  | check cause => cause.message
  | output cause => cause.message

/-- What is asked of the checks besides the fixture and the query. -/
structure Request where
  /-- The label of the mutation that takes the output; anything empty is none. -/
  mutation : Json := .null
  /-- The label of the argument that takes the output. -/
  parameter : Json := .str "result"
  /-- The operation to compare the fixture with. -/
  operation : Option String := none

/-- Checks a query, the input of a fixture and its output. -/
def checkAssets (schema : Schema) (fixture : FixtureData) (document : Document) (request : Request) :
    Except AssetsError AssetsReport := do
  let queryErrors ← (GraphQL.validate schema document).mapError .validation
  let input ←
    if queryErrors.isEmpty then some <$> (check schema document fixture.input request.operation).mapError .check
    else pure none
  let output ←
    if request.mutation.isEmptyLike then pure none
    else some <$> (checkOutput schema fixture.expectedOutput request.mutation request.parameter).mapError .output
  return ⟨queryErrors, input, output⟩

end FixtureCheck.Fixture
