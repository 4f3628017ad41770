import FixtureCheck.Json.Basic
import FixtureCheck.Yaml.Error

/-!
# Values of scalars

A scalar without quotes says by its form what it is: `kindOf` tells truth values, numbers, nothing, dates and texts
apart. `valueOf` reads the text of a scalar of a kind. Integers may be binary, octal, decimal, hexadecimal or counted by
sixties, and digits may be parted by underscores; a date stays a text.
-/

namespace FixtureCheck.Yaml

/-- The kinds of values that scalars have. -/
inductive ScalarKind where
  | truth
  | float
  | int
  | merge
  | nothing
  | date
  | mark
  | text
  deriving DecidableEq, Repr

/-! ## Forms -/

/-- The words for true and false. -/
def truthWords : List (String × Bool) := [
  ("yes", true), ("Yes", true), ("YES", true), ("no", false), ("No", false), ("NO", false), ("true", true),
  ("True", true), ("TRUE", true), ("false", false), ("False", false), ("FALSE", false), ("on", true), ("On", true),
  ("ON", true), ("off", false), ("Off", false), ("OFF", false)]

/-- The text without a sign. -/
def dropSign : List Char → List Char
  | '+' :: cs | '-' :: cs => cs
  | cs => cs

/-- Digits and underscores, a digit first. -/
def isDigitRun : List Char → Bool
  | [] => false
  | c :: cs => c.isDigit && cs.all fun c => c.isDigit || c == '_'

/-- Digits of a base and underscores, at least one of them. -/
def isRunOf (p : Char → Bool) (cs : List Char) : Bool := !cs.isEmpty && cs.all fun c => p c || c == '_'

/-- The pieces of a text between colons. -/
def colonParts : List Char → List (List Char)
  | [] => [[]]
  | c :: cs =>
    if c == ':' then [] :: colonParts cs
    else
      match colonParts cs with
      | piece :: rest => (c :: piece) :: rest
      | [] => [[c]]

/-- A number below sixty of one or two digits. -/
def isSixtieth : List Char → Bool
  | [a] => a.isDigit
  | [a, b] => '0' ≤ a && a ≤ '5' && b.isDigit
  | _ => false

/-- An exponent with a sign, or nothing. -/
def isExponent : List Char → Bool
  | [] => true
  | e :: sign :: digits =>
    (e == 'e' || e == 'E') && (sign == '+' || sign == '-') && !digits.isEmpty && digits.all Char.isDigit
  | _ => false

/-- Digits and underscores, then perhaps an exponent. -/
def isFraction (cs : List Char) : Bool := isExponent (cs.dropWhile fun c => c.isDigit || c == '_')

/-- The form of a number with a fraction, of an infinity or of no number. -/
def isFloatForm (cs : List Char) : Bool :=
  let unsigned := dropSign cs
  let whole := unsigned.takeWhile (· != '.')
  let parts := colonParts whole
  match cs with
  | ['.', 'n', 'a', 'n'] | ['.', 'N', 'a', 'N'] | ['.', 'N', 'A', 'N'] => true
  | _ =>
    match unsigned with
    | ['.', 'i', 'n', 'f'] | ['.', 'I', 'n', 'f'] | ['.', 'I', 'N', 'F'] => true
    | '.' :: digit :: rest => unsigned.length == cs.length && digit.isDigit && isFraction rest
    | _ =>
      unsigned.contains '.' && isDigitRun (parts.headD []) && (parts.drop 1).all isSixtieth &&
        (if parts.length = 1 then isFraction (unsigned.drop (whole.length + 1))
         else (unsigned.drop (whole.length + 1)).all fun c => c.isDigit || c == '_')

/-- A hexadecimal digit. -/
def isHexChar (c : Char) : Bool := c.isDigit || ('a' ≤ c && c ≤ 'f') || ('A' ≤ c && c ≤ 'F')

/-- The form of an integer. -/
def isIntForm (cs : List Char) : Bool :=
  match dropSign cs with
  | ['0'] => true
  | '0' :: 'b' :: rest => isRunOf (fun c => c == '0' || c == '1') rest
  | '0' :: 'x' :: rest => isRunOf isHexChar rest
  | '0' :: rest => isRunOf (fun c => '0' ≤ c && c ≤ '7') rest
  | cs =>
    let parts := colonParts cs
    isDigitRun (parts.headD []) && (parts.drop 1).all isSixtieth

/-- The words for nothing. -/
def nothingWords : List String := ["~", "null", "Null", "NULL", ""]

/-- The text after `least` to `most` digits. -/
def dropDigits (least most : Nat) (cs : List Char) : Option (List Char) :=
  let n := min most (cs.takeWhile Char.isDigit).length
  if least ≤ n then some (cs.drop n) else none

/-- The text after a character. -/
def dropChar (c : Char) : List Char → Option (List Char)
  | [] => none
  | d :: cs => if c == d then some cs else none

/-- A distance from the standard time, or nothing. -/
def isZone (cs : List Char) : Bool :=
  match cs.dropWhile fun c => c == ' ' || c == '\t' with
  | [] => cs.isEmpty
  | ['Z'] => true
  | sign :: rest =>
    (sign == '+' || sign == '-') &&
      match dropDigits 1 2 rest with
      | none => false
      | some [] => true
      | some rest => ((dropChar ':' rest).bind (dropDigits 2 2)).any (·.isEmpty)

/-- The time of a day, perhaps with fractions of a second and a zone. -/
def isTime (cs : List Char) : Bool :=
  let seconds := (((dropDigits 1 2 cs).bind (dropChar ':')).bind (dropDigits 2 2)).bind (dropChar ':')
  match seconds.bind (dropDigits 2 2) with
  | none => false
  | some ('.' :: rest) => isZone (rest.dropWhile Char.isDigit)
  | some rest => isZone rest

/-- The form of a date, perhaps with a time. -/
def isDateForm (cs : List Char) : Bool :=
  match (dropDigits 4 4 cs).bind (dropChar '-') with
  | none => false
  | some rest =>
    let day := (dropDigits 2 2 rest).bind (dropChar '-')
    if (day.bind (dropDigits 2 2)).any (·.isEmpty) then true
    else
      match ((dropDigits 1 2 rest).bind (dropChar '-')).bind (dropDigits 1 2) with
      | some ('t' :: rest) | some ('T' :: rest) => isTime rest
      | some (c :: rest) => (c == ' ' || c == '\t') && isTime (rest.dropWhile fun c => c == ' ' || c == '\t')
      | _ => false

/-- The kind of a scalar without quotes. -/
def kindOf (text : String) : ScalarKind :=
  let cs := text.toList
  if nothingWords.contains text then .nothing
  else if (truthWords.lookup text).isSome then .truth
  else if isFloatForm cs then .float
  else if isIntForm cs then .int
  else if isDateForm cs then .date
  else if text == "<<" then .merge
  else if text == "=" then .mark
  else .text

/-! ## Values -/

/-- The value of a digit in any base up to 16. -/
def digitValue (c : Char) : Nat :=
  if c.isDigit then c.toNat - '0'.toNat
  else if 'a' ≤ c && c ≤ 'f' then c.toNat - 'a'.toNat + 10
  else if 'A' ≤ c && c ≤ 'F' then c.toNat - 'A'.toNat + 10
  else 16

/-- A natural number in a base. -/
def natOf (base : Nat) (cs : List Char) : Except YamlError Nat :=
  if cs.isEmpty || cs.any fun c => base ≤ digitValue c then
    .error (.number s!"invalid literal for int() with base {base}: {Text.quoted (String.ofList cs)}")
  else .ok (cs.foldl (fun n c => base * n + digitValue c) 0)

/-- The text of a number without underscores. -/
def withoutUnderscores (text : String) : List Char := text.toList.filter (· != '_')

/-- The integer that a text stands for. -/
def intOf (text : String) : Except YamlError Int := do
  let cs := withoutUnderscores text
  let magnitude ← match dropSign cs with
    | ['0'] => pure 0
    | '0' :: 'b' :: rest => natOf 2 rest
    | '0' :: 'x' :: rest => natOf 16 rest
    | '0' :: rest => natOf 8 ('0' :: rest)
    | cs =>
      let parts ← (colonParts cs).mapM (natOf 10)
      pure (parts.foldl (fun n part => 60 * n + part) 0)
  return if cs.head? == some '-' then -(magnitude : Int) else magnitude

/-- A decimal number as digits and an exponent of ten. -/
def decimalOf (cs : List Char) : Option (Nat × Int) :=
  let number (cs : List Char) : Nat := cs.foldl (fun n c => 10 * n + digitValue c) 0
  let mantissa := cs.takeWhile fun c => c != 'e' && c != 'E'
  let exponent := cs.drop (mantissa.length + 1)
  let whole := mantissa.takeWhile (· != '.')
  let fraction := mantissa.drop (whole.length + 1)
  let power : Option Int := match exponent with
    | '-' :: digits => if digits.all Char.isDigit then some (-(number digits : Int)) else none
    | '+' :: digits | digits => if digits.all Char.isDigit then some (number digits) else none
  let hasExponent := mantissa.length < cs.length
  if (whole.isEmpty && fraction.isEmpty) || !(whole ++ fraction).all Char.isDigit ||
      (hasExponent && (dropSign exponent).isEmpty) then none
  else power.map fun power => (number (whole ++ fraction), power - fraction.length)

/-- The number that a text stands for. -/
def floatOf (text : String) : Except YamlError Binary64 := do
  let cs := (withoutUnderscores text).map Char.toLower
  let isNegative := cs.head? == some '-'
  let unsigned := dropSign cs
  let isInfinite := ["inf", "infinity", ".inf"].contains (String.ofList unsigned)
  if isInfinite then return .infinite isNegative
  if ["nan", ".nan"].contains (String.ofList unsigned) then return .nan
  let parts := colonParts unsigned
  let refused := YamlError.number s!"could not convert string to float: {Text.quoted (String.ofList unsigned)}"
  match (parts.mapM decimalOf) with
  | none => throw refused
  | some numbers =>
    let scale : Int := numbers.foldl (fun scale (_, power) => min scale power) 0
    let units := numbers.map fun (digits, power) => digits * tenPow (power - scale).toNat
    match numbers with
    | [(digits, power)] => return .ofDecimal isNegative digits power
    | _ => return .ofDecimal isNegative (units.foldl (fun n unit => 60 * n + unit) 0) scale

/-- The value of a scalar of a kind. -/
def valueOf (kind : ScalarKind) (text : String) : Except YamlError Json :=
  match kind with
  | .nothing => .ok .null
  | .truth =>
    match truthWords.find? fun (word, _) => word.toList.map Char.toLower == text.toList.map Char.toLower with
    | some (_, b) => .ok (.bool b)
    | none => .error (.noTruth (String.ofList (text.toList.map Char.toLower)))
  | .int => (intOf text).map .int
  | .float => (floatOf text).map .float
  | _ => .ok (.str text)

end FixtureCheck.Yaml
