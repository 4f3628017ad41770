import FixtureCheck.Json.Parser
import FixtureCheck.Network.Address
import FixtureCheck.Network.Endpoint
import FixtureCheck.SchemaStore.Profile
import FixtureCheck.Text.LetterCase

/-!
# Loading schemas

`load` takes a schema from a file, or from an endpoint. The answer of an endpoint is kept in a folder, in a file named
for the endpoint's host (`keptAt`); `load` reads that file instead of asking again, unless it is told not to.
`Profile.build` makes the schema.
-/

namespace FixtureCheck.SchemaStore

open GraphQL (Schema SchemaError)
open Network (AddressError EndpointError)
open Storage (Path FileError)

/-- Why a schema cannot be loaded. -/
inductive LoadError where
  | noSource
  | noFile (path : String)
  | file (cause : FileError)
  | malformed (cause : Json.ParseError)
  | address (cause : AddressError)
  | endpoint (cause : EndpointError)
  | kept (cause : ProfileError)
  /-- The source holds no schema. -/
  | invalid (url : String) (cause : SchemaError)
  /-- A value has a shape that nothing can be read from. -/
  | shape (cause : Json.AccessError)
  /-- There is no description to write. -/
  | noDescription (url : String)

/-- The message about an error. -/
def LoadError.message : LoadError → String
  | noSource => "No URL or schema file provided"
  | noFile path => s!"Schema file not found: {path}"
  | file cause => cause.message
  | malformed cause => cause.message
  | address cause => cause.message
  | endpoint cause => cause.message
  | kept cause => cause.message
  | invalid url cause => s!"Invalid schema from {url}: {cause.message}"
  | shape cause => cause.message
  | noDescription url => s!"No introspection JSON to write for {url}"

/-- The schema of a profile. -/
def Profile.build (p : Profile) : Except LoadError Schema :=
  p.schema.mapError fun cause =>
    match cause with
    | .access (.absent key) => .shape (.absent key)
    | .access (.noMember kind member) => .shape (.noMember kind member)
    | cause => .invalid p.url.asText cause

/-- A schema that is asked for. -/
structure SchemaRequest where
  /-- The address of an endpoint, a text; anything empty is none. -/
  url : Json := .null
  /-- The path of a file; an empty one is none. -/
  file : Option String := none
  /-- May a kept answer be used? -/
  allowsKept : Bool := true
  /-- Has the endpoint to be asked even if its answer was kept? -/
  refresh : Bool := false
  token : Option String := none
  deriving Inhabited

/-- The path at which the answer of an endpoint is kept. -/
def keptAt (folder : Path) (url : String) : Except AddressError Path := do
  let address ← Network.Address.ofText url
  return Path.join [folder, .ofText (address.hostName ++ ".json")]

/-- The ends of the names of files that hold schemas as texts. -/
def textSuffixes : List String := [".graphql", ".graphqls", ".gql"]

section

variable {m : Type → Type} [Monad m] [Host m]

/-- The text of a file. -/
def readFile (path : String) : ExceptT LoadError m String := do
  match ← readText path with
  | .ok text => return text
  | .error cause => throw (.file cause)

/-- The value in a file. -/
def readJson (path : String) : ExceptT LoadError m Json := do
  MonadExcept.ofExcept ((Json.parse (← readFile path)).mapError .malformed)

/-- Does something, unless it fails. -/
def attempt (action : m (Except FileError Unit)) : ExceptT LoadError m Unit := do
  if let .error cause ← action then throw (.file cause)

/-- The profile of a schema now. -/
def profileNow (url : String) (source : Json) (isText : Bool) : ExceptT LoadError m Profile := do
  let now ← Host.now
  let profile : Profile := { url := .str url, fetchedAt := .str now, digest := .str (digestOf source) }
  return if isText then { profile with text := source } else { profile with description := source }

/-- Loads a schema from a file: as a text, or as a description if its name does not say otherwise. -/
def loadFile (path : String) : ExceptT LoadError m Profile := do
  let p := Path.ofText path
  if !(← Host.has p) then throw (.noFile path)
  if textSuffixes.contains (Text.lower p.suffix) then
    profileNow ("file://" ++ path) (.str (← readFile p.text)) true
  else profileNow ("file://" ++ path) (← readJson path) false

/-- Asks an endpoint for its schema and keeps the answer at a path. -/
def fetch (url : String) (token : Option String) (kept : Path) : ExceptT LoadError m Profile := do
  let description ← (Network.introspect url token).adapt LoadError.endpoint
  let profile ← profileNow url description false
  attempt (Host.makeFolders kept.parent)
  attempt (Host.write kept.text profile.toJson.indented)
  return profile

/-- Loads a schema from an endpoint, or the answer that was kept. -/
def loadUrl (folder : Path) (url : String) (request : SchemaRequest) : ExceptT LoadError m Profile := do
  let kept ← MonadExcept.ofExcept ((keptAt folder url).mapError LoadError.address)
  if request.allowsKept && !request.refresh && (← Host.has kept) then
    MonadExcept.ofExcept ((Profile.ofJson (← readJson kept.text)).mapError LoadError.kept)
  else fetch url request.token kept

/-- Loads a schema. Answers of endpoints are kept in a folder. -/
def load (folder : Path) (request : SchemaRequest) : ExceptT LoadError m Profile := do
  match request.file.filter (· ≠ "") with
  | some path => loadFile path
  | none =>
    if request.url.isEmptyLike then throw .noSource
    match request.url with
    | .str url => loadUrl folder url request
    | url => throw (.shape (.noMember url.kindName "decode"))

end

end FixtureCheck.SchemaStore
