import FixtureCheck.GraphQL.Literal
import FixtureCheck.GraphQL.Schema.Standard
import FixtureCheck.GraphQL.Source

/-!
# Values that standard directives carry

`argumentValue?` reads an argument of a directive at its declared type, without knowing the values of variables. From it
follow the reason of `@deprecated`, and whether `@skip` and `@include` leave a selection in.
-/

namespace FixtureCheck.GraphQL

/-- Why the value of an argument cannot be read. -/
inductive ArgumentMisuse where
  | missing (argument : InputValue) (directive : Directive)
  | unboundVariable (argument : InputValue) (name : String) (offset : Nat)
  | isNull (argument : InputValue) (offset : Nat)
  | misfit (argument : InputValue) (value : Value) (offset : Nat)

namespace ArgumentMisuse

/-- The message about a misuse. -/
def message : ArgumentMisuse → String
  | missing a _ => s!"Argument '{a.name}' of required type '{a.type.text}' was not provided."
  | unboundVariable a name _ =>
    s!"Argument '{a.name}' of required type '{a.type.text}' was provided the variable '${name}' " ++
      "which was not provided a runtime value."
  | isNull a _ => s!"Argument '{a.name}' of non-null type '{a.type.text}' must not be null."
  | misfit a value _ => s!"Argument '{a.name}' has invalid value {printValue value}."

/-- Where the misuse is in the text. -/
def offset : ArgumentMisuse → Nat
  | missing _ directive => directive.offset
  | unboundVariable _ _ offset | isNull _ offset | misfit _ _ offset => offset

/-- The misuse in its text. -/
def inText (misuse : ArgumentMisuse) (source : List Char) : Fault :=
  ⟨false, misuse.message, source, [misuse.offset]⟩

end ArgumentMisuse

/-- The literal that a directive gives to an argument of a standard scalar type, or the argument's default. -/
def argumentValue? (argument : InputValue) (directive : Directive) : Except ArgumentMisuse (Option Value) :=
  match (directive.arguments.filter (·.name == argument.name)).getLast? with
  | none =>
    if argument.default?.isNone && argument.type.isNonNull then .error (.missing argument directive)
    else .ok argument.default?
  | some given =>
    match given.value with
    | .variable name =>
      if argument.default?.isNone && argument.type.isNonNull then
        .error (.unboundVariable argument name given.valueOffset)
      else .ok argument.default?
    | .null =>
      if argument.type.isNonNull then .error (.isNull argument given.valueOffset) else .ok (some .null)
    | value =>
      if (scalarMisfit? argument.type.base value).isNone then .ok (some value)
      else .error (.misfit argument value given.valueOffset)

/-- The value of an argument of the first directive of a kind, where there is one. -/
def directiveValue? (kind : DirectiveType) (argument : String) (directives : List Directive) :
    Except ArgumentMisuse (Option Value) :=
  match directives.find? (·.name == kind.name), kind.arguments.find? (·.name == argument) with
  | some d, some a => argumentValue? a d
  | _, _ => .ok none

/-- Do the directives give a reason for deprecation? -/
def isDeprecated (directives : List Directive) : Except ArgumentMisuse Bool := do
  match ← directiveValue? Standard.deprecated "reason" directives with
  | none | some .null => return false
  | some _ => return true

/-- Do `@skip` and `@include` leave a selection in? -/
def isIncluded (directives : List Directive) : Except ArgumentMisuse Bool := do
  if let some (.boolean true) ← directiveValue? Standard.skipIf "if" directives then return false
  if let some (.boolean false) ← directiveValue? Standard.includeIf "if" directives then return false
  return true

end FixtureCheck.GraphQL
