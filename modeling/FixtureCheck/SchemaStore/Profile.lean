import FixtureCheck.GraphQL.Schema.FromDescription
import FixtureCheck.GraphQL.Schema.FromDocument
import FixtureCheck.Json.Printer
import FixtureCheck.Text.Digest

/-!
# Schemas with their origins

A `Profile` is the source of a schema, a text or a description, with the place and the time it was taken from and a
digest of it. Profiles of endpoints are kept as JSON: `toJson` writes one and `ofJson` reads it back, `build` makes the
schema.
-/

namespace FixtureCheck.SchemaStore

open GraphQL (Schema SchemaError)

/-- The source of a schema. A profile that was kept may hold anything in its parts. -/
structure Profile where
  url : Json
  fetchedAt : Json
  digest : Json
  /-- The description of the schema; null if there is none. -/
  description : Json := .null
  /-- The schema as a text; null if there is none. -/
  text : Json := .null
  deriving Inhabited

/-- The digest of a value: that of its canonical text. -/
def digestOf (value : Json) : String := Text.fingerprint value.canonical

/-- Why a value is no profile. -/
inductive ProfileError where
  | notObject (kind : String)
  | unknownPart (name : String)
  | missingParts (names : List String)
  deriving DecidableEq, Repr

/-- Names in a row: commas between them and a conjunction in front of the last one. -/
def enumerated : List String → String
  | [] => ""
  | [a] => a
  | [a, b] => a ++ " and " ++ b
  | names => ", ".intercalate names.dropLast ++ ", and " ++ names.getLastD ""

/-- The message about an error. -/
def ProfileError.message : ProfileError → String
  | notObject kind =>
    s!"graphql_fixture_validator.schema_loader.SchemaProfile() argument after ** must be a mapping, not {kind}"
  | unknownPart name => s!"SchemaProfile.__init__() got an unexpected keyword argument '{name}'"
  | missingParts names =>
    let plural := if names.length = 1 then "" else "s"
    let shown := enumerated (names.map Text.quoted)
    s!"SchemaProfile.__init__() missing {names.length} required positional argument{plural}: {shown}"

namespace Profile

/-- The parts of every profile. -/
def requiredParts : List String := ["url", "fetched_at", "hash"]

/-- The parts that a profile may have. -/
def allParts : List String := requiredParts ++ ["schema_json", "sdl"]

/-- The profile as it is kept. -/
def toJson (p : Profile) : Json :=
  .obj [
    ("url", p.url), ("fetched_at", p.fetchedAt), ("hash", p.digest), ("schema_json", p.description), ("sdl", p.text)]

/-- The profile that was kept as a value. -/
def ofJson (value : Json) : Except ProfileError Profile :=
  match value with
  | .obj entries =>
    match entries.find? fun (key, _) => !allParts.contains key with
    | some (key, _) => .error (.unknownPart key)
    | none =>
      match requiredParts.filter fun name => (Json.lookup entries name).isNone with
      | [] =>
        let part (name : String) : Json := (Json.lookup entries name).getD .null
        .ok ⟨part "url", part "fetched_at", part "hash", part "schema_json", part "sdl"⟩
      | missing => .error (.missingParts missing)
  | value => .error (.notObject value.kindName)

/-- The text of the schema, if the value is one that a reader of texts takes. -/
def textOf (value : Json) : Except Json.AccessError String :=
  match value with
  | .str text => .ok text
  | .arr _ => .error (.noMember "list" "splitlines")
  | .obj [] => .error (.noKey "slice")
  | .obj _ => .error (.absent "0")
  | value => .error (.noLength value.kindName)

/-- The schema of a profile. -/
def schema (p : Profile) : Except SchemaError Schema := do
  match p.text with
  | .null => GraphQL.schemaOfDescription p.description
  | text => GraphQL.schemaOfText (← (textOf text).mapError .access)

end Profile

end FixtureCheck.SchemaStore
