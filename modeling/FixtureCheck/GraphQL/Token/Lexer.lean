import FixtureCheck.GraphQL.BlockString
import FixtureCheck.GraphQL.Name
import FixtureCheck.GraphQL.Source
import FixtureCheck.GraphQL.Token
import FixtureCheck.Text.Quoted

/-!
# Reading GraphQL tokens

`tokenize` splits a text into tokens. Blanks, line ends, commas, byte order marks and comments separate tokens and are
dropped. A text may turn malformed after any number of good tokens, so the result is a stream: the tokens up to there
and then the fault, which matters only to a reader who gets that far.

Each reader takes the characters that are left; a fault names how many were left where it stopped.
-/

namespace FixtureCheck.GraphQL

/-- Tokens in order, ended by the end of the text or by a fault. -/
inductive TokenStream where
  | done (last : Token)
  | fault (fault : Fault)
  | more (token : Token) (rest : TokenStream)
  deriving Repr, Inhabited

namespace Lexer

/-- Why the characters at hand are no token, and how many were left there. -/
structure Stop where
  remaining : Nat
  description : String

/-- How messages show the first of the characters left. -/
def showHead : List Char → String
  | [] => "<EOF>"
  | c :: _ =>
    if 0x20 ≤ c.toNat && c.toNat ≤ 0x7e then "'" ++ c.toString ++ "'"
    else
      let digits := (Nat.toDigits 16 c.toNat).map Char.toUpper
      "U+" ++ String.ofList (List.replicate (4 - digits.length) '0' ++ digits)

/-! ## Numbers -/

/-- The description of a place where a digit is missing. -/
def digitExpected (cs : List Char) : Stop :=
  ⟨cs.length, s!"Invalid number, expected digit but got: {showHead cs}."⟩

/-- A run of digits, at least one. -/
def digits (cs : List Char) : Except Stop (List Char × List Char) :=
  match cs.takeWhile Char.isDigit with
  | [] => .error (digitExpected cs)
  | ds => .ok (ds, cs.dropWhile Char.isDigit)

/-- The digits before the point: a zero by itself or digits that do not begin with one. -/
def wholePart : List Char → Except Stop (List Char × List Char)
  | '0' :: rest =>
    match rest with
    | c :: _ =>
      if c.isDigit then .error ⟨rest.length, s!"Invalid number, unexpected digit after 0: {showHead rest}."⟩
      else .ok (['0'], rest)
    | [] => .ok (['0'], [])
  | cs => digits cs

/-- The point and the digits after it, if there is a point. -/
def fractionPart : List Char → Except Stop (List Char × List Char)
  | '.' :: rest => do
    let (ds, rest) ← digits rest
    return ('.' :: ds, rest)
  | cs => .ok ([], cs)

/-- The exponent, if there is a mark. -/
def exponentPart : List Char → Except Stop (List Char × List Char)
  | mark :: rest =>
    if mark == 'e' || mark == 'E' then
      match rest with
      | sign :: rest' =>
        if sign == '+' || sign == '-' then do
          let (ds, rest) ← digits rest'
          return (mark :: sign :: ds, rest)
        else do
          let (ds, rest) ← digits rest
          return (mark :: ds, rest)
      | [] => .error (digitExpected [])
    else .ok ([], mark :: rest)
  | [] => .ok ([], [])

/-- A number, which neither a point nor a letter may follow. -/
def number (cs : List Char) : Except Stop (TokenKind × List Char × List Char) := do
  let (sign, unsigned) :=
    match cs with
    | '-' :: rest => (['-'], rest)
    | cs => ([], cs)
  let (whole, rest) ← wholePart unsigned
  let (fraction, rest) ← fractionPart rest
  let (exponent, rest) ← exponentPart rest
  match rest with
  | c :: _ =>
    if c == '.' || isNameStart c then throw (digitExpected rest)
  | [] => pure ()
  let kind := if fraction.isEmpty && exponent.isEmpty then TokenKind.int else .float
  return (kind, sign ++ whole ++ fraction ++ exponent, rest)

/-! ## Strings -/

/-- The value of a hexadecimal digit. -/
def hexDigit? (c : Char) : Option Nat :=
  if c.isDigit then some (c.toNat - '0'.toNat)
  else if 'a' ≤ c && c ≤ 'f' then some (c.toNat - 'a'.toNat + 10)
  else if 'A' ≤ c && c ≤ 'F' then some (c.toNat - 'A'.toNat + 10)
  else none

/-- The value of exactly four hexadecimal digits. -/
def hexUnit? (cs : List Char) : Option Nat :=
  match cs.take 4 with
  | [a, b, c, d] => do
    return (((← hexDigit? a) * 16 + (← hexDigit? b)) * 16 + (← hexDigit? c)) * 16 + (← hexDigit? d)
  | _ => none

/-- Is the number a character's code point? -/
def isScalar (n : Nat) : Bool := n < 0xD800 || (0xE000 ≤ n && n ≤ 0x10FFFF)

/-- An escape with a code point in braces, `cs` beginning at the backslash: the character and the escape's size. At most
twelve characters are looked at; a failed escape is as long as what was looked at. -/
def bracedEscape (cs : List Char) : Except Nat (Char × Nat) :=
  go 0 3 ((cs.take 12).drop 3)
where
  /-- `size` characters have been read, with the digits' value so far in `point`. -/
  go (point size : Nat) : List Char → Except Nat (Char × Nat)
    | [] => .error size
    | c :: rest =>
      if c == '}' then
        if size + 1 < 5 || !isScalar point then .error (size + 1) else .ok (Char.ofNat point, size + 1)
      else
        match hexDigit? c with
        | some d => go (point * 16 + d) (size + 1) rest
        | none => .error (size + 1)

/-- An escape with four hexadecimal digits, or two of them that make a pair, `cs` beginning at the backslash. -/
def fixedEscape (cs : List Char) : Except Nat (Char × Nat) :=
  match hexUnit? (cs.drop 2) with
  | none => .error 6
  | some unit =>
    if isScalar unit then .ok (Char.ofNat unit, 6)
    else if unit < 0xDC00 && (cs.drop 6).take 2 == ['\\', 'u'] then
      match hexUnit? (cs.drop 8) with
      | some low =>
        if 0xDC00 ≤ low && low < 0xE000 then
          .ok (Char.ofNat (0x10000 + (unit - 0xD800) * 0x400 + (low - 0xDC00)), 12)
        else .error 6
      | none => .error 6
    else .error 6

/-- The character a one-letter escape stands for. -/
def shortEscape? : Char → Option Char
  | '"' => some '"'
  | '\\' => some '\\'
  | '/' => some '/'
  | 'b' => some '\x08'
  | 'f' => some '\x0c'
  | 'n' => some '\n'
  | 'r' => some '\r'
  | 't' => some '\t'
  | _ => none

/-- An escape at the head of `cs`, which begins with a backslash: the character it stands for and its size. -/
def escape (cs : List Char) : Except Stop (Char × Nat) :=
  match cs with
  | _ :: 'u' :: c :: _ =>
    match if c == '{' then bracedEscape cs else fixedEscape cs with
    | .ok r => .ok r
    | .error size => .error ⟨cs.length, s!"Invalid Unicode escape sequence: '{String.ofList (cs.take size)}'."⟩
  | [_, 'u'] => .error ⟨cs.length, s!"Invalid Unicode escape sequence: '{String.ofList cs}'."⟩
  | _ =>
    match (cs[1]?).bind shortEscape? with
    | some c => .ok (c, 2)
    | none => .error ⟨cs.length, s!"Invalid character escape sequence: '{String.ofList (cs.take 2)}'."⟩

/-- The rest of a string after its opening quote. -/
def stringBody (cs : List Char) : Except Stop (List Char × List Char) :=
  match cs with
  | [] => .error ⟨0, "Unterminated string."⟩
  | c :: rest =>
    if c == '"' then .ok ([], rest)
    else if c == '\n' || c == '\r' then .error ⟨cs.length, "Unterminated string."⟩
    else if c == '\\' then
      match escape cs with
      | .error stop => .error stop
      | .ok (c, size) =>
        match stringBody (rest.drop (size - 1)) with
        | .error stop => .error stop
        | .ok (s, rest) => .ok (c :: s, rest)
    else
      match stringBody rest with
      | .error stop => .error stop
      | .ok (s, rest) => .ok (c :: s, rest)
termination_by cs.length
decreasing_by
  · simp only [List.length_drop, List.length_cons]; omega
  · simp

/-- The raw lines of a block string after its opening quotes; `line` holds the current line in reverse. -/
def blockLines (line : List Char) : List Char → Except Stop (List (List Char) × List Char)
  | [] => .error ⟨0, "Unterminated string."⟩
  | '"' :: '"' :: '"' :: rest => .ok ([line.reverse], rest)
  | '\\' :: '"' :: '"' :: '"' :: rest => blockLines ('"' :: '"' :: '"' :: line) rest
  | '\r' :: '\n' :: rest => do
    let (lines, rest) ← blockLines [] rest
    return (line.reverse :: lines, rest)
  | c :: rest =>
    if c == '\n' || c == '\r' then do
      let (lines, rest) ← blockLines [] rest
      return (line.reverse :: lines, rest)
    else blockLines (c :: line) rest

/-! ## Tokens -/

/-- The punctuators of one character. -/
def isPunctuator (c : Char) : Bool := "!$&():=@[]\x7b|\x7d".toList.contains c

/-- Characters between tokens, comments apart. -/
def isSeparator (c : Char) : Bool :=
  c == ' ' || c == '\t' || c == ',' || c == '\uFEFF' || c == '\n' || c == '\r'

/-- The characters from the next token on. -/
def skipSeparators : List Char → List Char
  | '#' :: rest => inComment rest
  | c :: rest => if isSeparator c then skipSeparators rest else c :: rest
  | [] => []
where
  /-- Skips the rest of a comment's line as well. -/
  inComment : List Char → List Char
    | c :: rest => if c == '\n' || c == '\r' then skipSeparators rest else inComment rest
    | [] => []

/-- The token at the head of `cs`, which begins with `c`: its kind, its value and the characters after it. -/
def token (c : Char) (rest : List Char) : Except Stop (TokenKind × List Char × List Char) :=
  if c == '"' then
    match rest with
    | '"' :: '"' :: rest => do
      let (lines, rest) ← blockLines [] rest
      return (.blockString, ['\n'].intercalate (dedent lines), rest)
    | rest => do
      let (s, rest) ← stringBody rest
      return (.string, s, rest)
  else if isPunctuator c then .ok (.punctuator c.toString, [], rest)
  else if c.isDigit || c == '-' then number (c :: rest)
  else if isNameStart c then .ok (.name, c :: rest.takeWhile isNameContinue, rest.dropWhile isNameContinue)
  else
    match c, rest with
    | '.', '.' :: '.' :: rest => .ok (.punctuator "...", [], rest)
    | '\'', rest =>
      .error ⟨rest.length + 1,
        "Unexpected single quote character ('), did you mean to use a double quote (\")?"⟩
    | c, rest => .error ⟨rest.length + 1, s!"Unexpected character: {showHead (c :: rest)}."⟩

/-- The tokens of the characters left in `source`. -/
def stream (source : List Char) (total : Nat) (cs : List Char) : TokenStream :=
  match _h : skipSeparators cs with
  | [] => .done ⟨.endOfText, "", total⟩
  | c :: rest =>
    match token c rest with
    | .error stop => .fault (.malformed source (total - stop.remaining) stop.description)
    | .ok (kind, value, after) =>
      let t : Token := ⟨kind, String.ofList value, total - (rest.length + 1)⟩
      if after.length < cs.length then .more t (stream source total after)
      else .done t
termination_by cs.length

end Lexer

/-- The tokens of a text. -/
def tokenize (source : List Char) : TokenStream := Lexer.stream source source.length source

end FixtureCheck.GraphQL
