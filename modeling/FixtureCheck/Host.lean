import FixtureCheck.Network.Response
import FixtureCheck.Storage.FileTree

/-!
# The surroundings of the program

`Host m` lists what commands ask of their surroundings: files, requests to endpoints, the time and the output. Commands
are written for every host. A `Machine` is a host that keeps everything in memory: its files, the answers that endpoints
have yet to give, the requests made so far and the texts printed.
-/

namespace FixtureCheck

open Storage (FileTree FileError Path)
open Network (Response)

/-- A request for the description of a schema. -/
structure Post where
  url : String
  /-- The header that authorises the request. -/
  authorization : Option String
  query : String
  /-- The seconds after which the request is given up. -/
  timeout : Nat
  deriving DecidableEq, Repr

/-- What the program asks of its surroundings. -/
class Host (m : Type → Type) where
  /-- The home folder. -/
  home : m Path
  /-- The time. -/
  now : m String
  /-- Is there a file or folder at a path? -/
  has : Path → m Bool
  /-- The text of a file as it is. -/
  read : String → m (Except FileError String)
  /-- Writes a file. -/
  write : String → String → m (Except FileError Unit)
  /-- Makes a folder and those around it. -/
  makeFolders : Path → m (Except FileError Unit)
  /-- Sends a request; a failure to reach the endpoint is told in words. -/
  post : Post → m (Except String Response)
  /-- Prints a text. -/
  print : String → m Unit

/-- Actions that may fail ask the same of their surroundings. -/
instance {ε : Type} {m : Type → Type} [Monad m] [Host m] : Host (ExceptT ε m) where
  home := ExceptT.lift Host.home
  now := ExceptT.lift Host.now
  has p := ExceptT.lift (Host.has p)
  read path := ExceptT.lift (Host.read path)
  write path text := ExceptT.lift (Host.write path text)
  makeFolders p := ExceptT.lift (Host.makeFolders p)
  post request := ExceptT.lift (Host.post request)
  print text := ExceptT.lift (Host.print text)

/-- A text with a newline at the end of every line that ended in a carriage return, with or without a newline. -/
def unifyLineEnds : List Char → List Char
  | '\r' :: '\n' :: rest => '\n' :: unifyLineEnds rest
  | '\r' :: rest => '\n' :: unifyLineEnds rest
  | c :: rest => c :: unifyLineEnds rest
  | [] => []

/-- The text of a file, with unified line ends. -/
def readText {m : Type → Type} [Monad m] [Host m] (path : String) : m (Except FileError String) := do
  return (← Host.read path).map fun text => String.ofList (unifyLineEnds text.toList)

/-- A host in memory. -/
structure Machine where
  files : FileTree := {}
  home : Path := .ofText "home"
  clock : String := "2000-01-01T00:00:00+00:00"
  /-- The answers that endpoints will give, in order. -/
  answers : List (Except String Response) := []
  /-- The requests made, in order. -/
  posts : List Post := []
  /-- The texts printed, in order. -/
  printed : List String := []

namespace Machine

/-- All that was printed. -/
def output (machine : Machine) : String := String.join machine.printed

/-- Replaces the files, unless that fails. -/
def setFiles (outcome : Except FileError FileTree) : StateM Machine (Except FileError Unit) := fun machine =>
  match outcome with
  | .error e => (.error e, machine)
  | .ok files => (.ok (), { machine with files })

/-- The next answer. -/
def answer (post : Post) : StateM Machine (Except String Response) := fun machine =>
  let machine := { machine with posts := machine.posts ++ [post] }
  match machine.answers with
  | [] => (.error "no answer left", machine)
  | answer :: answers => (answer, { machine with answers })

instance : Host (StateM Machine) where
  home := do return (← get).home
  now := do return (← get).clock
  has p := do return (← get).files.has p
  read path := do return (← get).files.read path
  write path text := do setFiles ((← get).files.write path text)
  makeFolders p := do setFiles ((← get).files.makeFolders p)
  post := answer
  print text := modify fun machine => { machine with printed := machine.printed ++ [text] }

end Machine

end FixtureCheck
