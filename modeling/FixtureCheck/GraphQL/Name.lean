import FixtureCheck.Text.Quoted

/-!
# Names

A name is made of ASCII letters, digits and underscores and does not begin with a digit. `nameError?` says what is wrong
with a text that should be one.
-/

namespace FixtureCheck.GraphQL

/-- May the character begin a name? -/
def isNameStart (c : Char) : Bool := c.isAlpha || c == '_'

/-- May the character continue a name? -/
def isNameContinue (c : Char) : Bool := c.isAlphanum || c == '_'

/-- What is wrong with a text that should be a name. -/
def nameError? (text : String) : Option String :=
  match text.toList with
  | [] => some "Expected name to be a non-empty string."
  | first :: rest =>
    if !(first :: rest).all isNameContinue then
      some s!"Names must only contain [_a-zA-Z0-9] but {Text.quoted text} does not."
    else if !isNameStart first then some s!"Names must start with [_a-zA-Z] but {Text.quoted text} does not."
    else none

/-- What is wrong with a text that should name an enum value. -/
def enumValueNameError? (text : String) : Option String :=
  match nameError? text with
  | some e => some e
  | none =>
    if ["true", "false", "null"].contains text then some s!"Enum values cannot be named: {text}." else none

end FixtureCheck.GraphQL
