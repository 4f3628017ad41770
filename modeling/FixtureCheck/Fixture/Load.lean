import FixtureCheck.Fixture.Data
import FixtureCheck.GraphQL.Syntax.Parser
import FixtureCheck.Host

/-!
# Loading fixtures and queries

`loadFixture` reads a fixture file and `loadQuery` a file with a query; `LoadError` tells in which ways that fails.
-/

namespace FixtureCheck.Fixture

open GraphQL (Document Fault)
open Storage (FileError Path)

/-- Why a fixture or a query cannot be loaded. -/
inductive LoadError where
  | noFixture (path : String)
  | fixture (path : String) (cause : FixtureError)
  | noQuery (path : String)
  | query (cause : Fault)
  | file (cause : FileError)

/-- The message about an error. -/
def LoadError.message : LoadError → String
  | noFixture path => s!"Fixture file not found: {path}"
  | fixture path cause => cause.message path
  | noQuery path => s!"Query file not found: {path}"
  | query cause => cause.fullText
  | file cause => cause.message

/-- The error of a fixture file that cannot be read. -/
def LoadError.ofFixtureFile (path : String) (cause : FileError) : LoadError :=
  if cause.cause = .notFound then .noFixture path else .file cause

/-- A query as a text and as a document. -/
structure Query where
  text : String
  document : Document

variable {m : Type → Type} [Monad m] [Host m]

/-- Loads the fixture in a file. -/
def loadFixture (path : String) : ExceptT LoadError m FixtureData := do
  let text ← MonadExcept.ofExcept ((← readText path).mapError (LoadError.ofFixtureFile path))
  MonadExcept.ofExcept ((FixtureData.ofText text).mapError (LoadError.fixture path))

/-- Loads the query in a file. -/
def loadQuery (path : String) : ExceptT LoadError m Query := do
  let p := Path.ofText path
  if !(← Host.has p) then throw (.noQuery path)
  let text ← MonadExcept.ofExcept ((← readText p.text).mapError LoadError.file)
  let document ← MonadExcept.ofExcept ((GraphQL.parseDocument text).mapError LoadError.query)
  return ⟨text, document⟩

end FixtureCheck.Fixture
