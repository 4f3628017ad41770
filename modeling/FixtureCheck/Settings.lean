import FixtureCheck.Host
import FixtureCheck.Json.Access
import FixtureCheck.Yaml.Node.Parser

/-!
# Settings

Settings come from a YAML file in the home folder, or another one. What the file does not say has a default. A value may
be of any kind, so that a part of the program that cannot use it says so; only the folder for kept schemas has to be a
text.
-/

namespace FixtureCheck

open Storage (Path FileError)
open Yaml (YamlError)

/-- Why there are no settings. -/
inductive SettingsError where
  | file (cause : FileError)
  | malformed (path : String) (cause : YamlError)
  /-- The file holds no settings by name. -/
  | shape (cause : Json.AccessError)
  | notPath (kind : String)
  | noHome

/-- The message about an error. -/
def SettingsError.message : SettingsError → String
  | file cause => cause.message
  | malformed path cause => cause.message path
  | shape cause => cause.message
  | notPath kind => s!"expected str, bytes or os.PathLike object, not {kind}"
  | noHome => "Could not determine home directory."

/-- What can be set. -/
structure Settings where
  /-- The path of the file with the schema. -/
  schemaFile : Json
  /-- The address of the endpoint with the schema. -/
  url : Json
  mutation : Json
  /-- The argument of the mutation that takes the output. -/
  parameter : Json
  /-- The folder for the answers of endpoints. -/
  keptSchemas : Path
  /-- The format of reports. -/
  output : Json

/-- The folder in the home folder that holds everything. -/
def settingsFolder : String := "~/.graphql-fixture-validator"

/-- The default folder for the answers of endpoints. -/
def defaultKeptSchemas : String := settingsFolder ++ "/schemas"

/-- The path that a value names, in the home folder if it says so. -/
def pathOf (home : Path) : Json → Except SettingsError Path
  | .str text => ((Path.ofText text).expand home).elim (.error .noHome) .ok
  | value => .error (.notPath value.kindName)

namespace Settings

/-- The settings with the given names. -/
def ofEntries (home : Path) (entries : List (String × Json)) : Except SettingsError Settings := do
  let part (name : String) (default : Json) : Json := (Json.lookup entries name).getD default
  let keptSchemas ← pathOf home (part "schema_cache_dir" (.str defaultKeptSchemas))
  let schemaFile := part "default_schema" .null
  let schemaFile ← if schemaFile.isEmptyLike then .ok schemaFile else (pathOf home schemaFile).map (.str ·.text)
  return {
    schemaFile, keptSchemas
    url := part "default_url" .null
    mutation := part "mutation_name" .null
    parameter := part "result_parameter_name" (.str "result")
    output := part "output" (.str "console") }

/-- The settings that a value holds; anything empty holds none. -/
def ofJson (home : Path) (value : Json) : Except SettingsError Settings :=
  if value.isEmptyLike then ofEntries home []
  else
    match value with
    | .obj entries => ofEntries home entries
    | value => .error (.shape (.noMember value.kindName "get"))

/-- The path of the usual file. -/
def usualPath (home : Path) : Except SettingsError Path := pathOf home (.str (settingsFolder ++ "/config.yaml"))

variable {m : Type → Type} [Monad m] [Host m]

/-- The path of a file, the usual one if none is named. -/
def pathOrUsual (path : Option String) : ExceptT SettingsError m String := do
  match path with
  | some path => return path
  | none => return (← MonadExcept.ofExcept (usualPath (← Host.home))).text

/-- The settings in a file; the defaults if there is no such file. -/
def load (path : Option String) : ExceptT SettingsError m Settings := do
  let home ← Host.home
  let path ← pathOrUsual path
  if !(← Host.has (.ofText path)) then return ← MonadExcept.ofExcept (ofEntries home [])
  match ← readText path with
  | .error cause => throw (.file cause)
  | .ok text =>
    match Yaml.parse text with
    | .error cause => throw (.malformed path cause)
    | .ok value => MonadExcept.ofExcept (ofJson home value)

/-- A file of settings to start from. -/
def exampleText : String :=
  "\n".intercalate [
    "default_schema: ./schema.graphql",
    "default_url: null",
    "mutation_name: cartValidationsGenerateRun",
    "result_parameter_name: result",
    "schema_cache_dir: " ++ defaultKeptSchemas,
    "output: console",
    ""]

/-- Writes a file of settings to start from, and gives its path. -/
def writeExample (path : Option String) : ExceptT SettingsError m String := do
  let path ← pathOrUsual path
  if let .error cause ← Host.makeFolders (Path.ofText path).parent then throw (.file cause)
  if let .error cause ← Host.write path exampleText then throw (.file cause)
  return path

end Settings

end FixtureCheck
