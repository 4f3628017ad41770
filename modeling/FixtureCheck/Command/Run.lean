import FixtureCheck.Command.Arguments
import FixtureCheck.Command.SchemaPull
import FixtureCheck.Command.Validation

/-!
# Running commands

`Command.run` runs a command on a host. A command that fails prints one line about the failure and has the exit code 1.
-/

namespace FixtureCheck.Command

variable {m : Type → Type} [Monad m] [Host m]

/-- Writes settings to start from; gives the exit code. -/
def performWriteSettings (path : Option String) : ExceptT Failure m Nat := do
  let path ← (Settings.writeExample path).adapt .settings
  say (Report.namedValues "Config written" [("path", path)])
  return 0

/-- Does what a command says; gives the exit code. -/
def perform : Command → ExceptT Failure m Nat
  | validate request => request.perform
  | pullSchema request => request.perform
  | writeSettings path => performWriteSettings path

/-- Is a failure of the command to be told in full? -/
def debugs : Command → Bool
  | validate request => request.debugs
  | _ => false

/-- Runs a command. -/
def run (command : Command) : m Outcome := do
  match ← command.perform.run with
  | .ok exitCode => return { exitCode }
  | .error failure =>
    if let .ok text := failure.block.text then Host.print text
    return { exitCode := 1, raised := if command.debugs then some failure else none }

/-- Runs the command that arguments tell, if there is one. -/
def runArguments (arguments : List String) : m Outcome :=
  match ofArguments arguments with
  | .ok command => command.run
  | .error refusal => return { exitCode := refusal.exitCode }

end FixtureCheck.Command
