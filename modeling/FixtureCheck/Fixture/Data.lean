import FixtureCheck.Json.Parser

/-!
# Fixture files

A fixture file is a JSON object whose `payload` holds the input, and beside it the expected output and some facts about
the function that the fixture is for. `FixtureData.ofText` takes them out.
-/

namespace FixtureCheck.Fixture

/-- What a fixture file holds. -/
structure FixtureData where
  input : Json
  expectedOutput : Json := .null
  exportName : Json := .null
  target : Json := .null
  queryVariables : Json := .obj []
  deriving Inhabited

/-- Why a fixture cannot be read. -/
inductive FixtureError where
  | malformed (cause : Json.ParseError)
  | noPayload
  | noInput

/-- The message about an error in the file at a path. -/
def FixtureError.message (path : String) : FixtureError → String
  | malformed cause => s!"Invalid JSON in fixture file {path}: {cause.message}"
  | noPayload => s!"Fixture file {path} has no payload object"
  | noInput => s!"Fixture file {path} has no payload.input"

/-- The fixture that a JSON value holds. -/
def FixtureData.ofJson (file : Json) : Except FixtureError FixtureData :=
  match file.field? "payload" with
  | some (.obj payload) =>
    match Json.lookup payload "input" with
    | none => .error .noInput
    | some input =>
      let part (key : String) : Json := (Json.lookup payload key).getD .null
      let queryVariables := part "inputQueryVariables"
      let queryVariables := if queryVariables.isEmptyLike then .obj [] else queryVariables
      .ok ⟨input, part "output", part "export", part "target", queryVariables⟩
  | _ => .error .noPayload

/-- The fixture that a text holds. -/
def FixtureData.ofText (text : String) : Except FixtureError FixtureData := do
  FixtureData.ofJson (← (Json.parse text).mapError .malformed)

end FixtureCheck.Fixture
