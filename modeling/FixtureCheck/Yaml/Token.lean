import FixtureCheck.Yaml.Error

/-!
# Tokens of YAML

Indentation is told by tokens: a block collection starts with a token of its own and ends with `blockEnd`; keys of
mappings are announced by `key`, also where the text has no question mark.
-/

namespace FixtureCheck.Yaml

/-- What a directive says. -/
inductive Directive where
  | version (major minor : Nat)
  | tag (handle start : String)
  | other
  deriving DecidableEq, Repr, Inhabited

/-- The kinds of tokens. -/
inductive TokenKind where
  | directive (value : Directive)
  | documentStart
  | documentEnd
  | streamEnd
  | blockSequence
  | blockMapping
  | blockEnd
  | flowSequence
  | flowSequenceEnd
  | flowMapping
  | flowMappingEnd
  | blockEntry
  | flowEntry
  | key
  | value
  | reference (name : String)
  | anchor (name : String)
  | tag (handle : Option String) (suffix : String)
  | scalar (text : String) (isPlain : Bool)
  deriving DecidableEq, Repr, Inhabited

/-- The name of a kind in messages. -/
def TokenKind.text : TokenKind → String
  | directive _ => "<directive>"
  | documentStart => "<document start>"
  | documentEnd => "<document end>"
  | streamEnd => "<stream end>"
  | blockSequence => "<block sequence start>"
  | blockMapping => "<block mapping start>"
  | blockEnd => "<block end>"
  | flowSequence => "["
  | flowSequenceEnd => "]"
  | flowMapping => "\x7b"
  | flowMappingEnd => "\x7d"
  | blockEntry => "-"
  | flowEntry => ","
  | key => "?"
  | value => ":"
  | reference _ => "<alias>"
  | anchor _ => "<anchor>"
  | tag _ _ => "<tag>"
  | scalar _ _ => "<scalar>"

/-- A token and where it begins. -/
structure Token where
  kind : TokenKind
  mark : Mark
  deriving DecidableEq, Repr, Inhabited

end FixtureCheck.Yaml
