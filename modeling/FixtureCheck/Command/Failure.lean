import FixtureCheck.Fixture.Load
import FixtureCheck.Report.Summary
import FixtureCheck.SchemaStore.Load
import FixtureCheck.Settings

/-!
# How commands end

A command ends with an exit code. It may also fail, and a `Failure` names the part of the work that was to blame.
-/

namespace FixtureCheck.Command

open Report (Block ReportError)
open Storage (FileError)

/-- Why a command cannot be run to its end. -/
inductive Failure where
  | settings (cause : SettingsError)
  | schema (cause : SchemaStore.LoadError)
  | files (cause : Fixture.LoadError)
  /-- The checks cannot be made; `query` is the text of the query. -/
  | checks (query : String) (cause : Fixture.AssetsError)
  | report (cause : ReportError)
  | output (cause : FileError)

namespace Failure

/-- The message about a failure. -/
def message : Failure → String
  | settings cause => cause.message
  | schema cause => cause.message
  | files cause => cause.message
  | checks query cause => cause.message query
  | report cause => cause.message
  | output cause => cause.message

/-- The line about a failure. -/
def block (failure : Failure) : Block := .line ("[red]Error: " ++ Report.escape failure.message ++ "[/red]")

end Failure

/-- How a command ended. -/
structure Outcome where
  exitCode : Nat
  /-- A failure that is to be told in full. -/
  raised : Option Failure := none

/-- The value of an option, or the setting if it is not given or empty. -/
def orSetting (given : Option String) (setting : Json) : Json :=
  match given with
  | none | some "" => setting
  | some text => .str text

/-- Is the option given, and not empty? -/
def isGiven (value : Option String) : Bool := value.any (· ≠ "")

/-- Prints some blocks of a command's own. -/
def say {m : Type → Type} [Monad m] [Host m] (blocks : List Block) : ExceptT Failure m Unit :=
  (Report.printBlocks (blocks.map .ok)).adapt .report

end FixtureCheck.Command
