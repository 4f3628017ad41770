import FixtureCheck.Text.Quoted

/-!
# Errors in YAML texts

A `YamlError` says what was wrong and where; some also say what was being read and where that began. `YamlError.message`
words them, with the name of the file.
-/

namespace FixtureCheck.Yaml

/-- A place in a text; line and column count from zero. -/
structure Mark where
  line : Nat
  column : Nat
  deriving DecidableEq, Repr, Inhabited

/-- A place in words. -/
def Mark.text (file : String) (m : Mark) : String :=
  s!"  in \"{file}\", line {m.line + 1}, column {m.column + 1}"

/-- What was being read when an error was found. -/
structure Context where
  text : String
  mark : Option Mark := none
  deriving DecidableEq, Repr

/-- Why a text cannot be read. -/
inductive YamlError where
  | unprintable (c : Char) (position : Nat)
  | problem (text : String) (mark : Option Mark) (context : Option Context)
  /-- A scalar that has to be a number is none. -/
  | number (message : String)
  /-- A scalar that has to be true or false is neither. -/
  | noTruth (text : String)
  deriving DecidableEq, Repr

/-- The message about an error in a file. -/
def YamlError.message (file : String) : YamlError → String
  | unprintable c position =>
    let code := String.ofList (Text.hex 4 c.toNat)
    s!"unacceptable character #x{code}: special characters are not allowed\n  in \"{file}\", position {position}"
  | problem text mark context =>
    let before := context.toList.flatMap fun c =>
      c.text :: (c.mark.filter (some · ≠ mark)).toList.map (Mark.text file)
    "\n".intercalate (before ++ [text] ++ mark.toList.map (Mark.text file))
  | number message => message
  | noTruth text => Text.quoted text

end FixtureCheck.Yaml
