/-!
# Commands

`Command` lists what the program can be told to do.
-/

namespace FixtureCheck

/-- What to validate, and how. An option that is not given, or empty, leaves the choice to the settings. -/
structure Validation where
  /-- The path of the fixture. -/
  fixture : String
  /-- The path of the query. -/
  query : String
  /-- The path of the schema. -/
  schema : Option String := none
  /-- The address of an endpoint that describes the schema. -/
  url : Option String := none
  token : Option String := none
  mutation : Option String := none
  /-- The argument of the mutation that takes the output. -/
  parameter : Option String := none
  operation : Option String := none
  /-- The path of the settings. -/
  settings : Option String := none
  /-- The format of the report. -/
  output : Option String := none
  /-- Is a fixture that does not match a failure of the program? -/
  failsOnMismatch : Bool := true
  /-- Is a failure to be told in full? -/
  debugs : Bool := false
  deriving DecidableEq, Repr, Inhabited

/-- Which schema to take from an endpoint, and where to put it. -/
structure SchemaPull where
  url : Option String := none
  token : Option String := none
  /-- The path of a file for the description of the schema. -/
  out : Option String := none
  deriving DecidableEq, Repr, Inhabited

/-- What the program is told to do. -/
inductive Command where
  | validate (request : Validation)
  | pullSchema (request : SchemaPull)
  /-- Write settings to start from. -/
  | writeSettings (path : Option String)
  deriving DecidableEq, Repr, Inhabited

end FixtureCheck
