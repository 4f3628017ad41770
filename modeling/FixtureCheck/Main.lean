import FixtureCheck.Command.Run
import FixtureCheck.Text.Timestamp

/-!
# The program

The machine it runs on as a host: its files, its clock and its terminal. It has no way to reach an endpoint, so a schema
has to be in a file or kept already.
-/

namespace FixtureCheck

open Storage (FileError)

/-- The code of an error about a folder where a file should be. Systems give it with either sign. -/
def isFolderCode : UInt32 := 21

/-- What an error about a file tells. -/
def causeOf : IO.Error → FileError.Cause
  | .noFileOrDirectory .. => .notFound
  | .alreadyExists .. => .alreadyExists
  | .inappropriateType _ code _ => if code = isFolderCode ∨ code = 0 - isFolderCode then .isFolder else .notFolder
  | .permissionDenied .. => .denied
  | _ => .unusable

/-- The outcome of something done to the file at a path. -/
def attempted {α : Type} (path : String) (action : IO α) : IO (Except FileError α) := do
  try return .ok (← action)
  catch e => return .error ⟨causeOf e, path⟩

/-- The time, as that of a file just made. -/
def clock : IO String := do
  let (_, path) ← IO.FS.createTempFile
  let modified := (← path.metadata).modified
  IO.FS.removeFile path
  return Text.timestamp modified.sec.toNat (modified.nsec.toNat / 1000)

instance : Host IO where
  home := return .ofText ((← IO.getEnv "HOME").getD "/")
  now := clock
  has p := (do let _ ← IO.FS.realPath p.text; return true) <|> return false
  read path := attempted path (IO.FS.readFile path)
  write path text := attempted path (IO.FS.writeFile path text)
  makeFolders p := attempted p.text (IO.FS.createDirAll p.text)
  post _ := return .error "network is unreachable"
  print text := IO.print text

end FixtureCheck

/-- Runs the command that the arguments tell. -/
def main (arguments : List String) : IO UInt32 := do
  let outcome : FixtureCheck.Command.Outcome ← FixtureCheck.Command.runArguments arguments
  if let some failure := outcome.raised then IO.eprintln failure.message
  return .ofNat outcome.exitCode
