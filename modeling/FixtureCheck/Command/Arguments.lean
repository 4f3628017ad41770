import FixtureCheck.Command.Basic

/-!
# Arguments of the command line

`Command.ofArguments` reads a command. Groups of commands come first, with their own options in front of the name of a
command; the options of a command stand anywhere among its words. An option with a value takes the next argument
whatever it is, or has its value attached; two dashes end the options. Of options that exclude each other the last one
counts.
-/

namespace FixtureCheck.Command

/-- Why there is no command to run. -/
inductive Refusal where
  /-- Help is asked for. -/
  | help
  | misuse
  deriving DecidableEq, Repr

/-- The exit code of the program if there is no command to run. -/
def Refusal.exitCode : Refusal → Nat
  | help => 0
  | misuse => 2

/-- What follows an option. -/
inductive Arity where
  | value
  | nothing
  deriving DecidableEq, Repr

/-- The options that a command knows. -/
abbrev OptionTable := List (String × Arity)

/-- A part of the arguments of a command. -/
inductive Item where
  | option (name value : String)
  | switch (name : String)
  | word (text : String)
  deriving DecidableEq, Repr

/-- The option that asks for help. -/
def helpOption : String := "--help"

/-- Is the argument an option? A lone dash is a word. -/
def isOption (argument : String) : Bool := argument.startsWith "-" && argument.length > 1

/-- An option and the value attached to it: behind an equals sign, or behind the one letter of a short option. -/
def cutOption (argument : String) : String × Option String :=
  let cs := argument.toList
  if argument.startsWith "--" then
    let name := cs.takeWhile (· != '=')
    (String.ofList name, if cs.contains '=' then some (String.ofList (cs.drop (name.length + 1))) else none)
  else (String.ofList (cs.take 2), if cs.length > 2 then some (String.ofList (cs.drop 2)) else none)

/-- The parts of the arguments of a command. -/
def items (table : OptionTable) : List String → Except Refusal (List Item)
  | [] => .ok []
  | argument :: rest =>
    if argument == "--" then .ok (rest.map .word)
    else if isOption argument then
      let (name, attached) := cutOption argument
      match table.lookup name, attached, rest with
      | some .nothing, none, rest => (items table rest).map (.switch name :: ·)
      | some .value, some value, rest => (items table rest).map (.option name value :: ·)
      | some .value, none, value :: rest => (items table rest).map (.option name value :: ·)
      | _, _, _ => .error .misuse
    else (items table rest).map (.word argument :: ·)

/-- The name of a command in a group, and the arguments behind it; `helps` tells if help was asked for before. -/
def subcommand (helps : Bool) : List String → Except Refusal (String × List String)
  | [] => .error (if helps then .help else .misuse)
  | argument :: rest =>
    if argument == helpOption then subcommand true rest
    else if argument == "--" then
      match rest with
      | name :: rest => if helps then .error .help else .ok (name, rest)
      | [] => .error (if helps then .help else .misuse)
    else if isOption argument then .error .misuse
    else if helps then .error .help
    else .ok (argument, rest)

/-! ## What the parts say -/

/-- The words among the parts. -/
def wordsOf (items : List Item) : List String :=
  items.filterMap fun
    | .word text => some text
    | _ => none

/-- The value of an option that has some names. -/
def valueOf (names : List String) (items : List Item) : Option String :=
  (items.filterMap fun
    | .option name value => if names.contains name then some value else none
    | _ => none).getLast?

/-- Is something switched on? -/
def isSwitchedOn (on off : String) (default : Bool) (items : List Item) : Bool :=
  ((items.filterMap fun
    | .switch name => if name == on then some true else if name == off then some false else none
    | _ => none).getLast?).getD default

/-- The parts of the arguments of a command, unless they ask for help. -/
def itemsOrHelp (table : OptionTable) (arguments : List String) : Except Refusal (List Item) := do
  let items ← items ((helpOption, .nothing) :: table) arguments
  if items.contains (.switch helpOption) then throw .help
  return items

/-! ## Commands -/

/-- The options of a validation. -/
def validationOptions : OptionTable := [
  ("--query", .value), ("-q", .value), ("--schema", .value), ("--url", .value), ("--token", .value),
  ("--mutation", .value), ("--result-param", .value), ("--operation", .value), ("--config", .value),
  ("--output", .value), ("--fail-on-error", .nothing), ("--no-fail-on-error", .nothing), ("--debug", .nothing),
  ("--no-debug", .nothing)]

/-- Reads a validation: the fixture is its one word, and the query has to be given. -/
def readValidation (arguments : List String) : Except Refusal Command := do
  let items ← itemsOrHelp validationOptions arguments
  match wordsOf items, valueOf ["--query", "-q"] items with
  | [fixture], some query =>
    return .validate {
      fixture, query
      schema := valueOf ["--schema"] items
      url := valueOf ["--url"] items
      token := valueOf ["--token"] items
      mutation := valueOf ["--mutation"] items
      parameter := valueOf ["--result-param"] items
      operation := valueOf ["--operation"] items
      settings := valueOf ["--config"] items
      output := valueOf ["--output"] items
      failsOnMismatch := isSwitchedOn "--fail-on-error" "--no-fail-on-error" true items
      debugs := isSwitchedOn "--debug" "--no-debug" false items }
  | _, _ => throw .misuse

/-- The parts of the arguments of a command that takes no words. -/
def onlyOptions (table : OptionTable) (arguments : List String) : Except Refusal (List Item) := do
  let items ← itemsOrHelp table arguments
  if !(wordsOf items).isEmpty then throw .misuse
  return items

/-- Reads what to take from an endpoint. -/
def readSchemaPull (arguments : List String) : Except Refusal Command := do
  let items ← onlyOptions [("--url", .value), ("--token", .value), ("--out", .value)] arguments
  return .pullSchema {
    url := valueOf ["--url"] items
    token := valueOf ["--token"] items
    out := valueOf ["--out"] items }

/-- Reads where to write settings. -/
def readWriteSettings (arguments : List String) : Except Refusal Command := do
  return .writeSettings (valueOf ["--path"] (← onlyOptions [("--path", .value)] arguments))

/-- The command that arguments tell. -/
def ofArguments (arguments : List String) : Except Refusal Command := do
  match ← subcommand false arguments with
  | ("validate", rest) => readValidation rest
  | ("schema", rest) =>
    match ← subcommand false rest with
    | ("pull", rest) => readSchemaPull rest
    | _ => throw .misuse
  | ("config", rest) =>
    match ← subcommand false rest with
    | ("init", rest) => readWriteSettings rest
    | _ => throw .misuse
  | _ => throw .misuse

end FixtureCheck.Command
