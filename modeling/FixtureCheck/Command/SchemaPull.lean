import FixtureCheck.Command.Basic
import FixtureCheck.Command.Failure

/-!
# Taking a schema from an endpoint

`SchemaPull.perform` asks an endpoint for its schema even if its answer was kept, and keeps the new one. The description
can also be written into a file of its own.
-/

namespace FixtureCheck.SchemaPull

open Command (Failure orSetting say)
open SchemaStore (Profile)

variable {m : Type → Type} [Monad m] [Host m]

/-- Puts the description of a schema where it was asked for. Gives its path, which is that of the kept answer if nothing
was asked for. -/
def place (request : SchemaPull) (settings : Settings) (url : String) (profile : Profile) :
    ExceptT Failure m String := do
  match request.out with
  | none | some "" =>
    let kept ← MonadExcept.ofExcept
      ((SchemaStore.keptAt settings.keptSchemas url).mapError fun e => .schema (.address e))
    return kept.text
  | some path =>
    if let .null := profile.description then throw (.schema (.noDescription profile.url.asText))
    if let .error cause ← Host.write path profile.description.indented then throw (.output cause)
    return path

/-- Takes a schema from an endpoint; gives the exit code. -/
def perform (request : SchemaPull) : ExceptT Failure m Nat := do
  let settings ← (Settings.load none).adapt .settings
  let url := orSetting request.url settings.url
  if url.isEmptyLike then
    say [.line "[red]Error: No URL provided. Use --url or set default_url in config.[/red]"]
    return 1
  say [.line s!"[cyan]Fetching schema from {url.asText}...[/cyan]"]
  let profile ← (SchemaStore.load settings.keptSchemas { url, refresh := true, token := request.token }).adapt .schema
  let path ← request.place settings url.asText profile
  let rows := [("url", profile.url.asText), ("hash", profile.digest.asText), ("path", path)]
  say (Report.namedValues "Schema pulled" rows)
  return 0

end FixtureCheck.SchemaPull
