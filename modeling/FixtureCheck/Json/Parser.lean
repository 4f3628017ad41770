import FixtureCheck.Json.Basic

/-!
# Reading JSON

`Json.parse` reads a JSON text; the constants `NaN`, `Infinity` and `-Infinity` count as numbers, a number with neither
a fraction nor an exponent is an integer, and an object keeps the order of its keys. An error has a cause and a place
(`ParseError`), counted in characters.

Each reader takes the characters that are left and returns a value with the characters after it; a failed one names the
number of characters left where it stopped. A value takes at least one character, which is why the readers end.
-/

namespace FixtureCheck.Json

/-- Why a text is no JSON. -/
inductive ParseError.Cause where
  | byteOrderMark
  | value
  | propertyName
  | colon
  | comma
  | unterminatedString
  | controlCharacter
  | escape
  | unicodeEscape
  | extraData
  deriving DecidableEq, Repr

/-- The wording of a cause. -/
def ParseError.Cause.message : ParseError.Cause → String
  | byteOrderMark => "Unexpected UTF-8 BOM (decode using utf-8-sig)"
  | value => "Expecting value"
  | propertyName => "Expecting property name enclosed in double quotes"
  | colon => "Expecting ':' delimiter"
  | comma => "Expecting ',' delimiter"
  | unterminatedString => "Unterminated string starting at"
  | controlCharacter => "Invalid control character at"
  | escape => "Invalid \\escape"
  | unicodeEscape => "Invalid \\uXXXX escape"
  | extraData => "Extra data"

/-- A failure to read a JSON text, with its place: `offset` counts from zero, `line` and `column` from one. -/
structure ParseError where
  cause : ParseError.Cause
  line : Nat
  column : Nat
  offset : Nat
  deriving DecidableEq, Repr

/-- The full text of a failure. -/
def ParseError.message (e : ParseError) : String :=
  s!"{e.cause.message}: line {e.line} column {e.column} (char {e.offset})"

/-- Where a reader stopped: the cause, and how many characters were left. -/
structure Stop where
  cause : ParseError.Cause
  remaining : Nat
  deriving DecidableEq, Repr

/-- The failure at `stop` in a text. -/
def Stop.inText (stop : Stop) (text : List Char) : ParseError :=
  let before := text.take (text.length - stop.remaining)
  { cause := stop.cause
    offset := before.length
    line := before.count '\n' + 1
    column := (before.reverse.takeWhile (· != '\n')).length + 1 }

/-! ## Blanks, strings and numbers -/

/-- The blanks of JSON. -/
def isBlank (c : Char) : Bool := c == ' ' || c == '\t' || c == '\n' || c == '\r'

/-- The characters after leading blanks. -/
def skipBlanks (cs : List Char) : List Char := cs.dropWhile isBlank

/-- Skipping blanks adds no characters. -/
theorem skipBlanks_length_le (cs : List Char) : (skipBlanks cs).length ≤ cs.length :=
  (List.dropWhile_sublist _).length_le

/-- The value of a hexadecimal digit. -/
def hexValue? (c : Char) : Option Nat :=
  if '0' ≤ c && c ≤ '9' then some (c.toNat - '0'.toNat)
  else if 'a' ≤ c && c ≤ 'f' then some (c.toNat - 'a'.toNat + 10)
  else if 'A' ≤ c && c ≤ 'F' then some (c.toNat - 'A'.toNat + 10)
  else none

/-- The value of four hexadecimal digits. -/
def hex4? (a b c d : Char) : Option Nat := do
  return (((← hexValue? a) * 16 + (← hexValue? b)) * 16 + (← hexValue? c)) * 16 + (← hexValue? d)

/-- The character a one-letter escape stands for. -/
def shortEscape? : Char → Option Char
  | '"' => some '"'
  | '\\' => some '\\'
  | '/' => some '/'
  | 'b' => some '\x08'
  | 'f' => some '\x0c'
  | 'n' => some '\n'
  | 'r' => some '\r'
  | 't' => some '\t'
  | _ => none

/-- What a reader leaves of `cs`: fewer characters. -/
abbrev Rest (cs : List Char) := { rest : List Char // rest.length < cs.length }

/-- A character from a UTF-16 unit; a half of a pair stands for nothing by itself. -/
def ofUnit (unit : Nat) : Char :=
  if 0xD800 ≤ unit && unit < 0xE000 then '\uFFFD' else Char.ofNat unit

/-- One character of a string, or `none` for the closing quote; `opening` characters were left at the opening quote. A
pair of escapes for the halves of a character beyond the basic plane makes one character. -/
def stringPiece (opening : Nat) : (cs : List Char) → Except Stop (Option Char × Rest cs)
  | [] => .error ⟨.unterminatedString, opening⟩
  | '"' :: rest => .ok (none, ⟨rest, by simp⟩)
  | ['\\'] => .error ⟨.unterminatedString, opening⟩
  | '\\' :: 'u' :: a :: b :: c :: d :: e :: rest =>
    match hex4? a b c d with
    | none => .error ⟨.unicodeEscape, rest.length + 6⟩
    | some unit =>
      match 0xD800 ≤ unit && unit < 0xDC00, e, rest with
      | true, '\\', 'u' :: a' :: b' :: c' :: d' :: f :: rest' =>
        match hex4? a' b' c' d' with
        | none => .error ⟨.unicodeEscape, rest'.length + 6⟩
        | some low =>
          if 0xDC00 ≤ low && low < 0xE000 then
            .ok (some (Char.ofNat (0x10000 + (unit - 0xD800) * 0x400 + (low - 0xDC00))), ⟨f :: rest', by simp⟩)
          else .ok (some (ofUnit unit), ⟨'\\' :: 'u' :: a' :: b' :: c' :: d' :: f :: rest', by simp⟩)
      | _, e, rest => .ok (some (ofUnit unit), ⟨e :: rest, by simp⟩)
  | '\\' :: 'u' :: rest => .error ⟨.unicodeEscape, rest.length + 1⟩
  | '\\' :: c :: rest =>
    match shortEscape? c with
    | some c => .ok (some c, ⟨rest, by simp only [List.length_cons]; omega⟩)
    | none => .error ⟨.escape, rest.length + 2⟩
  | c :: rest =>
    if c.toNat < 0x20 then .error ⟨.controlCharacter, rest.length + 1⟩
    else .ok (some c, ⟨rest, by simp⟩)

/-- The rest of a string, after its opening quote. -/
def stringBody (opening : Nat) (cs : List Char) : Except Stop (List Char × Rest cs) :=
  match stringPiece opening cs with
  | .error stop => .error stop
  | .ok (none, rest) => .ok ([], rest)
  | .ok (some c, ⟨rest, _⟩) =>
    match stringBody opening rest with
    | .error stop => .error stop
    | .ok (s, ⟨rest', _⟩) => .ok (c :: s, ⟨rest', by omega⟩)
termination_by cs.length

/-- The value of a run of decimal digits. -/
def digitsValue (ds : List Char) : Nat :=
  ds.foldl (fun n c => 10 * n + (c.toNat - '0'.toNat)) 0

/-- A run of digits and what follows it. -/
def spanDigits (cs : List Char) : List Char × List Char := (cs.takeWhile Char.isDigit, cs.dropWhile Char.isDigit)

/-- The digits of a fraction, when a point and a digit come next. -/
def fractionPart : List Char → Option (List Char) × List Char
  | '.' :: d :: rest => if d.isDigit then ((spanDigits (d :: rest)).map some id) else (none, '.' :: d :: rest)
  | cs => (none, cs)

/-- The exponent, when a mark, an optional sign and a digit come next. -/
def exponentPart (cs : List Char) : Option Int × List Char :=
  match cs with
  | mark :: rest =>
    if mark == 'e' || mark == 'E' then
      let (negative, unsigned) :=
        match rest with
        | '+' :: r => (false, r)
        | '-' :: r => (true, r)
        | r => (false, r)
      match spanDigits unsigned with
      | ([], _) => (none, cs)
      | (ds, after) => (some (if negative then -(digitsValue ds : Int) else digitsValue ds), after)
    else (none, cs)
  | [] => (none, [])

/-- The whole part of a number: a zero, or digits that begin with another one. -/
def wholePart : List Char → Option (List Char × List Char)
  | '0' :: rest => some (['0'], rest)
  | c :: rest => if c.isDigit then some (spanDigits (c :: rest)) else none
  | [] => none

/-- A number without its sign. -/
def unsignedNumber (negative : Bool) (cs : List Char) : Option (Json × List Char) := do
  let (whole, rest) ← wholePart cs
  let (fraction, rest) := fractionPart rest
  let (exponent, rest) := exponentPart rest
  match fraction, exponent with
  | none, none =>
    let n : Int := digitsValue whole
    return (.int (if negative then -n else n), rest)
  | fraction, exponent =>
    let fraction := fraction.getD []
    let digits := digitsValue (whole ++ fraction)
    return (.float (.ofDecimal negative digits (exponent.getD 0 - fraction.length)), rest)

/-- A number or one of the constants that count as numbers. -/
def number : List Char → Option (Json × List Char)
  | 'N' :: 'a' :: 'N' :: rest => some (.float .nan, rest)
  | 'I' :: 'n' :: 'f' :: 'i' :: 'n' :: 'i' :: 't' :: 'y' :: rest => some (.float (.infinite false), rest)
  | '-' :: 'I' :: 'n' :: 'f' :: 'i' :: 'n' :: 'i' :: 't' :: 'y' :: rest => some (.float (.infinite true), rest)
  | '-' :: rest => unsignedNumber true rest
  | cs => unsignedNumber false cs

/-! ## Values -/

mutual

/-- A value at the head of `cs`. -/
def value (cs : List Char) : Except Stop (Json × Rest cs) :=
  match cs with
  | '"' :: rest =>
    match stringBody (rest.length + 1) rest with
    | .error stop => .error stop
    | .ok (s, ⟨rest', _⟩) => .ok (.str (String.ofList s), ⟨rest', by simp only [List.length_cons]; omega⟩)
  | '{' :: rest =>
    match _h : skipBlanks rest with
    | '}' :: rest' => .ok (.obj [], ⟨rest', by have := skipBlanks_length_le rest; simp_all; omega⟩)
    | inner =>
      match members inner with
      | .error stop => .error stop
      | .ok (entries, ⟨rest', _⟩) =>
        .ok (ofEntries entries, ⟨rest', by have := skipBlanks_length_le rest; simp_all; omega⟩)
  | '[' :: rest =>
    match _h : skipBlanks rest with
    | ']' :: rest' => .ok (.arr [], ⟨rest', by have := skipBlanks_length_le rest; simp_all; omega⟩)
    | inner =>
      match elements inner with
      | .error stop => .error stop
      | .ok (items, ⟨rest', _⟩) => .ok (.arr items, ⟨rest', by have := skipBlanks_length_le rest; simp_all; omega⟩)
  | 'n' :: 'u' :: 'l' :: 'l' :: rest => .ok (.null, ⟨rest, by simp only [List.length_cons]; omega⟩)
  | 't' :: 'r' :: 'u' :: 'e' :: rest => .ok (.bool true, ⟨rest, by simp only [List.length_cons]; omega⟩)
  | 'f' :: 'a' :: 'l' :: 's' :: 'e' :: rest => .ok (.bool false, ⟨rest, by simp only [List.length_cons]; omega⟩)
  | cs =>
    match number cs with
    | some (n, rest) => if h : rest.length < cs.length then .ok (n, ⟨rest, h⟩) else .error ⟨.value, cs.length⟩
    | none => .error ⟨.value, cs.length⟩
termination_by (cs.length, 0)
decreasing_by
  all_goals
    have := skipBlanks_length_le rest
    simp_all
    omega

/-- The elements of an array up to its closing bracket, at least one. -/
def elements (cs : List Char) : Except Stop (List Json × Rest cs) :=
  match value cs with
  | .error stop => .error stop
  | .ok (item, ⟨rest, _⟩) =>
    match _h : skipBlanks rest with
    | ']' :: rest' => .ok ([item], ⟨rest', by have := skipBlanks_length_le rest; simp_all; omega⟩)
    | ',' :: rest' =>
      match elements (skipBlanks rest') with
      | .error stop => .error stop
      | .ok (items, ⟨rest'', _⟩) =>
        .ok (item :: items, ⟨rest'', by
          have := skipBlanks_length_le rest; have := skipBlanks_length_le rest'; simp_all; omega⟩)
    | rest' => .error ⟨.comma, rest'.length⟩
termination_by (cs.length, 1)
decreasing_by
  · exact Prod.Lex.right _ Nat.zero_lt_one
  · have := skipBlanks_length_le rest; have := skipBlanks_length_le rest'; simp_all; omega

/-- The entries of an object up to its closing brace, at least one; a key may come several times. -/
def members (cs : List Char) : Except Stop (List (String × Json) × Rest cs) :=
  match cs with
  | '"' :: afterQuote =>
    match stringBody (afterQuote.length + 1) afterQuote with
    | .error stop => .error stop
    | .ok (key, ⟨afterKey, _⟩) =>
      match _h : skipBlanks afterKey with
      | ':' :: afterColon =>
        match value (skipBlanks afterColon) with
        | .error stop => .error stop
        | .ok (item, ⟨rest, _⟩) =>
          match _h' : skipBlanks rest with
          | '}' :: rest' =>
            .ok ([(String.ofList key, item)], ⟨rest', by
              have := skipBlanks_length_le afterKey; have := skipBlanks_length_le afterColon
              have := skipBlanks_length_le rest; simp_all; omega⟩)
          | ',' :: rest' =>
            match members (skipBlanks rest') with
            | .error stop => .error stop
            | .ok (entries, ⟨rest'', _⟩) =>
              .ok ((String.ofList key, item) :: entries, ⟨rest'', by
                have := skipBlanks_length_le afterKey; have := skipBlanks_length_le afterColon
                have := skipBlanks_length_le rest; have := skipBlanks_length_le rest'; simp_all; omega⟩)
          | rest' => .error ⟨.comma, rest'.length⟩
      | other => .error ⟨.colon, other.length⟩
  | other => .error ⟨.propertyName, other.length⟩
termination_by (cs.length, 1)
decreasing_by
  · have := skipBlanks_length_le afterKey; have := skipBlanks_length_le afterColon; simp_all; omega
  · have := skipBlanks_length_le afterKey; have := skipBlanks_length_le afterColon
    have := skipBlanks_length_le rest; have := skipBlanks_length_le rest'; simp_all; omega

end

/-- Reads a whole JSON text. -/
def parse (text : String) : Except ParseError Json :=
  let cs := text.toList
  if cs.head? == some '\uFEFF' then .error (Stop.inText ⟨.byteOrderMark, cs.length⟩ cs)
  else
    match value (skipBlanks cs) with
    | .error stop => .error (stop.inText cs)
    | .ok (v, ⟨rest, _⟩) =>
      match skipBlanks rest with
      | [] => .ok v
      | rest => .error (Stop.inText ⟨.extraData, rest.length⟩ cs)

end FixtureCheck.Json
