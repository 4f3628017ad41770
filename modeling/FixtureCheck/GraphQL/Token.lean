/-!
# GraphQL tokens

A token is a punctuator, a name, a number or a string, or the end of the text; `offset` is where it begins. Messages
name a token by its kind and, unless it is a punctuator, its value (`Token.describe`).
-/

namespace FixtureCheck.GraphQL

/-- The kinds of tokens; `punctuator` carries its own text. -/
inductive TokenKind where
  | endOfText
  | punctuator (text : String)
  | name
  | int
  | float
  | string
  | blockString
  deriving DecidableEq, Repr, Inhabited

/-- How messages name a kind. -/
def TokenKind.describe : TokenKind → String
  | endOfText => "<EOF>"
  | punctuator text => "'" ++ text ++ "'"
  | name => "Name"
  | int => "Int"
  | float => "Float"
  | string => "String"
  | blockString => "BlockString"

/-- A token: `value` is a name, the digits of a number, or the decoded contents of a string. -/
structure Token where
  kind : TokenKind
  value : String
  offset : Nat
  deriving DecidableEq, Repr, Inhabited

/-- How messages name a token. -/
def Token.describe (t : Token) : String :=
  match t.kind with
  | .endOfText | .punctuator _ => t.kind.describe
  | kind => kind.describe ++ " '" ++ t.value ++ "'"

end FixtureCheck.GraphQL
