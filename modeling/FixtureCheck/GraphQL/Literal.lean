import FixtureCheck.GraphQL.Schema
import FixtureCheck.GraphQL.Syntax.Printer
import FixtureCheck.Text.Suggestion

/-!
# Literals and the types they fit

`scalarMisfit?` and `enumMisfit?` say why a literal is no value of a scalar or enum type. `fits` decides whether a
literal without variables is a value of any input type; it is told about named types by a function, since the types may
still be under construction, and looks at the fields of an input object only when it meets an object literal.
-/

namespace FixtureCheck.GraphQL

/-! ## Leaves -/

/-- Why a literal is no value of a leaf type. -/
inductive LeafMisfit where
  | notInteger (literal : Value)
  | outOfRange (literal : Value)
  | notNumeric (literal : Value)
  | notText (literal : Value)
  | notBoolean (literal : Value)
  | notIdentifier (literal : Value)
  | unknownMember (enum : String) (members : List String) (literal : Value)
  | notMember (enum : String) (members : List String) (literal : Value)

/-- The enum values that look like a text. -/
def didYouMeanMember (members : List String) (text : String) : String :=
  Text.didYouMean (Text.suggestions text members) "the enum value"

/-- The message about a misfit. -/
def LeafMisfit.message : LeafMisfit → String
  | notInteger v => "Int cannot represent non-integer value: " ++ printValue v
  | outOfRange v => "Int cannot represent non 32-bit signed integer value: " ++ printValue v
  | notNumeric v => "Float cannot represent non numeric value: " ++ printValue v
  | notText v => "String cannot represent a non string value: " ++ printValue v
  | notBoolean v => "Boolean cannot represent a non boolean value: " ++ printValue v
  | notIdentifier v => "ID cannot represent a non-string and non-integer value: " ++ printValue v
  | unknownMember enum members v =>
    s!"Value '{printValue v}' does not exist in '{enum}' enum." ++ didYouMeanMember members (printValue v)
  | notMember enum members v =>
    s!"Enum '{enum}' cannot represent non-enum value: {printValue v}." ++ didYouMeanMember members (printValue v)

/-- Is the number one of 32 bits with a sign? -/
def isInt32 (n : Int) : Bool := -2147483648 ≤ n && n ≤ 2147483647

/-- Why a literal is no value of a scalar type; a scalar type that is not a standard one has all literals as values. -/
def scalarMisfit? (name : String) (literal : Value) : Option LeafMisfit :=
  match name, literal with
  | "Int", .int digits =>
    if isInt32 (digits.toInt?.getD 0) then none else some (.outOfRange literal)
  | "Int", _ => some (.notInteger literal)
  | "Float", .int _ | "Float", .float _ => none
  | "Float", _ => some (.notNumeric literal)
  | "String", .string .. => none
  | "String", _ => some (.notText literal)
  | "Boolean", .boolean _ => none
  | "Boolean", _ => some (.notBoolean literal)
  | "ID", .string .. | "ID", .int _ => none
  | "ID", _ => some (.notIdentifier literal)
  | _, _ => none

/-- Why a literal is no value of an enum type. -/
def enumMisfit? (name : String) (members : List String) (literal : Value) : Option LeafMisfit :=
  match literal with
  | .enum member => if members.contains member then none else some (.unknownMember name members literal)
  | _ => some (.notMember name members literal)

/-! ## All input types -/

/-- What the check of a literal has to know about a named type. -/
inductive LiteralType (ε : Type) where
  | leaf (accepts : Value → Bool)
  | input (fields : Except ε (List InputValue)) (isOneOf : Bool)
  /-- The type is not for input. -/
  | other (cause : ε)

/-- Is the literal null? -/
def Value.isNull : Value → Bool
  | .null => true
  | _ => false

/-- The last value that an object literal gives to a field. -/
def lastEntry? (name : String) : (entries : List (String × Value)) → Option { v : Value // sizeOf v < sizeOf entries }
  | [] => none
  | (key, v) :: rest =>
    match lastEntry? name rest with
    | some ⟨w, h⟩ => some ⟨w, by simp; omega⟩
    | none => if key == name then some ⟨v, by simp; omega⟩ else none

/-- Is a literal a value of a type? A field of an object literal that the type lacks is ignored. -/
def fits {ε : Type} (typeOf : String → LiteralType ε) (type : TypeRef) (literal : Value) : Except ε Bool :=
  match type with
  | .nonNull t => if literal.isNull then return false else fits typeOf t literal
  | .list t =>
    match literal with
    | .null => return true
    | .list items => items.attach.allM fun ⟨item, _⟩ => fits typeOf t item
    | single => fits typeOf t single
  | .named name =>
    match literal with
    | .null => return true
    | .variable _ => return false
    | .object entries =>
      match typeOf name with
      | .leaf accepts => return accepts (.object entries)
      | .other cause => .error cause
      | .input fields isOneOf => do
        let mut nulls : List Bool := []
        for field in ← fields do
          match lastEntry? field.name entries with
          | none =>
            match field.default? with
            | some d => nulls := nulls ++ [d.isNull]
            | none => if field.type.isNonNull then return false
          | some ⟨v, _⟩ =>
            if ← fits typeOf field.type v then nulls := nulls ++ [v.isNull] else return false
        return !isOneOf || nulls == [false]
    | single =>
      match typeOf name with
      | .leaf accepts => return accepts single
      | .other cause => .error cause
      | .input .. => return false
termination_by (sizeOf literal, sizeOf type)
decreasing_by
  · exact .right _ (by simp)
  · rename_i h
    have := List.sizeOf_lt_of_mem h
    exact .left _ _ (by simp; omega)
  · exact .right _ (by simp)
  · exact .left _ _ (by simp; omega)

end FixtureCheck.GraphQL
