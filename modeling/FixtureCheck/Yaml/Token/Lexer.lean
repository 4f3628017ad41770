import FixtureCheck.Yaml.Token
import FixtureCheck.Yaml.Token.Scalar

/-!
# Reading tokens of YAML

`tokens` reads the tokens of a text. Keys without a question mark are found late: a place where a key may begin is kept
as a `PossibleKey`, and when a colon follows on the same line the tokens `key` and perhaps `blockMapping` are put in
front of what was read since. Every step reads at least one character, so the number of steps is bounded by the text.
-/

namespace FixtureCheck.Yaml

/-- A place where a key may have begun. -/
structure PossibleKey where
  /-- The number of tokens in front of it. -/
  position : Nat
  /-- Has it to be a key, so that the text is wrong if it is none? -/
  isRequired : Bool
  index : Nat
  mark : Mark
  deriving Repr

/-- What was read so far. -/
structure Lexer where
  cursor : Cursor
  tokens : List Token := []
  /-- The number of flow collections around the cursor. -/
  flowLevel : Nat := 0
  /-- The column of the innermost block collection. -/
  indent : Int := -1
  /-- The columns of the block collections around it. -/
  outer : List Int := []
  allowsKey : Bool := true
  /-- The possible keys by flow level. -/
  keys : List (Nat × PossibleKey) := []

/-- The longest key without a question mark. -/
def maxKeyLength : Nat := 1024

namespace Lexer

/-- Adds a token at the cursor. -/
def add (s : Lexer) (kind : TokenKind) : Lexer := { s with tokens := s.tokens ++ [⟨kind, s.cursor.mark⟩] }

/-- Adds a token of `n` characters. -/
def addWord (s : Lexer) (kind : TokenKind) (n : Nat) : Lexer := { s.add kind with cursor := s.cursor.skip n }

/-- Puts a token in front of those read since a place. -/
def insert (s : Lexer) (key : PossibleKey) (kind : TokenKind) : Lexer :=
  { s with tokens := s.tokens.insertIdx key.position ⟨kind, key.mark⟩ }

/-- Is the cursor inside a flow collection? -/
def inFlow (s : Lexer) : Bool := s.flowLevel != 0

/-! ## Keys -/

/-- The failure of a key without a colon. -/
def noColon {α : Type} (s : Lexer) (key : PossibleKey) : Except YamlError α :=
  failure "could not find expected ':'" s.cursor.mark (some ⟨"while scanning a simple key", some key.mark⟩)

/-- Drops the possible keys that are too far behind. -/
def dropStaleKeys (s : Lexer) : Except YamlError Lexer := do
  let isStale (key : PossibleKey) : Bool :=
    key.mark.line != s.cursor.line || s.cursor.index - key.index > maxKeyLength
  match s.keys.find? fun (_, key) => isStale key && key.isRequired with
  | some (_, key) => s.noColon key
  | none => return { s with keys := s.keys.filter fun (_, key) => !isStale key }

/-- Drops the possible key of this flow level. -/
def dropKey (s : Lexer) : Except YamlError Lexer :=
  match s.keys.lookup s.flowLevel with
  | some key =>
    if key.isRequired then s.noColon key
    else .ok { s with keys := s.keys.filter (·.1 != s.flowLevel) }
  | none => .ok s

/-- Notes that a key may begin here. -/
def saveKey (s : Lexer) : Except YamlError Lexer := do
  if !s.allowsKey then return s
  let s ← s.dropKey
  let key : PossibleKey := {
    position := s.tokens.length
    isRequired := !s.inFlow && s.indent == s.cursor.column
    index := s.cursor.index
    mark := s.cursor.mark }
  return { s with keys := s.keys ++ [(s.flowLevel, key)] }

/-! ## Indentation -/

/-- Ends the block collections that are indented deeper than a column. -/
def unwindFrom (column : Int) (s : Lexer) : List Int → Lexer
  | [] => s
  | indent :: outer =>
    if s.indent > column then unwindFrom column { s.add .blockEnd with indent, outer } outer else s

/-- Ends the block collections that are indented deeper than a column; inside flow collections nothing ends. -/
def unwind (s : Lexer) (column : Int) : Lexer := if s.inFlow then s else unwindFrom column s s.outer

/-- Starts a block collection at a deeper column; none if the column is not deeper. -/
def deepen (s : Lexer) (column : Nat) : Option Lexer :=
  if s.indent < column then some { s with indent := column, outer := s.indent :: s.outer } else none

/-! ## Between tokens -/

/-- The place of the next token. A key may begin on every new line of a block. -/
def skipBlanks : Nat → Lexer → Lexer
  | 0, s => s
  | n + 1, s =>
    let c := s.cursor.skipWhile (· == ' ')
    let c := if c.here == '#' then c.skipWhile (!isBreakOrEnd ·) else c
    if isBreak c.here then
      skipBlanks n { s with cursor := c.lineBreak.2, allowsKey := s.allowsKey || !s.inFlow }
    else { s with cursor := c }

/-- The place of the next token; a byte order mark at the beginning does not count. -/
def toNextToken (s : Lexer) : Lexer :=
  let s := if s.cursor.index = 0 && s.cursor.here == '\uFEFF' then { s with cursor := s.cursor.next } else s
  skipBlanks (s.cursor.chars.length + 1) s

/-! ## Directives, anchors and tags -/

/-- The characters of names. -/
def isNameChar (c : Char) : Bool := c.isAlphanum || c == '-' || c == '_'

/-- The characters of tags. -/
def isTagChar (c : Char) : Bool := c.isAlphanum || "-;/?:@&=+$,_.!~*'()[]%".toList.contains c

/-- A number. -/
def versionNumber (start : Mark) (c : Cursor) : Except YamlError (Nat × Cursor) := do
  let (digits, after) := c.takeWhile Char.isDigit
  if digits.isEmpty then unexpected "while scanning a directive" start "expected a digit" c
  else return (digits.foldl (fun n d => 10 * n + (d.toNat - '0'.toNat)) 0, after)

/-- The bytes of escaped characters. -/
def escapedBytes (context : String) (start : Mark) : Nat → Cursor → Except YamlError (List UInt8 × Cursor)
  | 0, c => .ok ([], c)
  | n + 1, c => do
    if c.here != '%' then return ([], c)
    match hexValue? (c.peek 1), hexValue? (c.peek 2) with
    | some high, some low =>
      let (bytes, c) ← escapedBytes context start n (c.skip 3)
      return (UInt8.ofNat (16 * high + low) :: bytes, c)
    | none, _ =>
      unexpected context start "expected URI escape sequence of 2 hexadecimal numbers" c.next
    | _, none =>
      unexpected context start "expected URI escape sequence of 2 hexadecimal numbers" (c.skip 2)

/-- The text of a tag. -/
def tagChars (context : String) (start : Mark) : Nat → List Char → Cursor → Except YamlError (List Char × Cursor)
  | 0, text, c => .ok (text, c)
  | n + 1, text, c => do
    if !isTagChar c.here then return (text, c)
    if c.here == '%' then
      let (bytes, after) ← escapedBytes context start c.chars.length c
      match String.fromUTF8? ⟨bytes.toArray⟩ with
      | some decoded => tagChars context start n (text ++ decoded.toList) after
      | none => failure "invalid UTF-8 bytes" c.mark (some ⟨context, some start⟩)
    else tagChars context start n (text ++ [c.here]) c.next

/-- The text of a tag, which is not empty. -/
def tagText (context : String) (start : Mark) (c : Cursor) : Except YamlError (String × Cursor) := do
  let (text, after) ← tagChars context start c.chars.length [] c
  if text.isEmpty then unexpected context start "expected URI" after
  else return (String.ofList text, after)

/-- The handle of a tag: a name between exclamation marks, or one exclamation mark. -/
def tagHandle (context : String) (start : Mark) (c : Cursor) : Except YamlError (String × Cursor) := do
  if c.here != '!' then unexpected context start "expected '!'" c
  else if c.peek 1 == ' ' then return ("!", c.next)
  else
    let (name, after) := c.next.takeWhile isNameChar
    if after.here != '!' then unexpected context start "expected '!'" after
    else return (String.ofList ('!' :: name ++ ['!']), after.next)

/-- What a directive says. -/
def directiveValue (name : String) (start : Mark) (c : Cursor) : Except YamlError (Directive × Cursor) := do
  let context := "while scanning a directive"
  match name with
  | "YAML" =>
    let (major, c) ← versionNumber start (c.skipWhile (· == ' '))
    if c.here != '.' then unexpected context start "expected a digit or '.'" c
    else
      let (minor, c) ← versionNumber start c.next
      if !isSpaceOrEnd c.here then unexpected context start "expected a digit or ' '" c
      else return (.version major minor, c)
  | "TAG" =>
    let (handle, c) ← tagHandle context start (c.skipWhile (· == ' '))
    if c.here != ' ' then unexpected context start "expected ' '" c
    else
      let (text, c) ← tagText context start (c.skipWhile (· == ' '))
      if !isSpaceOrEnd c.here then unexpected context start "expected ' '" c
      else return (.tag handle text, c)
  | _ => return (.other, c.skipWhile (!isBreakOrEnd ·))

/-- A directive. -/
def directive (c : Cursor) : Except YamlError (TokenKind × Cursor) := do
  let start := c.mark
  let context := "while scanning a directive"
  let (name, after) := c.next.takeWhile isNameChar
  if name.isEmpty then unexpected context start "expected alphabetic or numeric character" after
  else if !isSpaceOrEnd after.here then unexpected context start "expected alphabetic or numeric character" after
  else
    let (value, after) ← directiveValue (String.ofList name) start after
    return (.directive value, ← ignoredLine context start after)

/-- The name of an anchor behind its mark. -/
def anchorName (context : String) (c : Cursor) : Except YamlError (String × Cursor) := do
  let (name, after) := c.next.takeWhile isNameChar
  if name.isEmpty || !(isBlankOrEnd after.here || "?:,]\x7d%@\x60".toList.contains after.here) then
    unexpected context c.mark "expected alphabetic or numeric character" after
  else return (String.ofList name, after)

/-- Does an exclamation mark come before the next blank? -/
def hasHandle (cs : List Char) : Bool := (cs.takeWhile (!isSpaceOrEnd ·)).contains '!'

/-- A tag. -/
def tag (c : Cursor) : Except YamlError (TokenKind × Cursor) := do
  let start := c.mark
  let (kind, after) ←
    if c.peek 1 == '<' then do
      let (text, after) ← tagText "while parsing a tag" start (c.skip 2)
      if after.here != '>' then unexpected "while parsing a tag" start "expected '>'" after
      else pure (TokenKind.tag none text, after.next)
    else if isBlankOrEnd (c.peek 1) then pure (TokenKind.tag none "!", c.next)
    else do
      let (handle, after) ←
        if hasHandle (c.chars.drop 1) then tagHandle "while scanning a tag" start c else pure ("!", c.next)
      let (text, after) ← tagText "while parsing a tag" start after
      pure (TokenKind.tag (some handle) text, after)
  if !isSpaceOrEnd after.here then unexpected "while scanning a tag" start "expected ' '" after
  else return (kind, after)

/-! ## Steps -/

/-- A token that ends all blocks in front of it. -/
def outermost (s : Lexer) : Except YamlError Lexer := do
  let s ← (s.unwind (-1)).dropKey
  return { s with allowsKey := false }

/-- A token with contents, which may begin a key. -/
def withContents (s : Lexer) (read : Cursor → Except YamlError (TokenKind × Cursor)) : Except YamlError Lexer := do
  let s ← s.saveKey
  let (kind, cursor) ← read s.cursor
  return { s.add kind with cursor, allowsKey := false }

/-- A literal or folded text. -/
def blockText (s : Lexer) (folded : Bool) : Except YamlError Lexer := do
  let s ← { s with allowsKey := true }.dropKey
  let (text, cursor) ← blockScalar folded s.indent s.cursor
  return { s.add (.scalar text false) with cursor }

/-- A text without quotes. -/
def plain (s : Lexer) : Except YamlError Lexer := do
  let s ← s.saveKey
  let (text, newLine, cursor) := plainScalar s.inFlow s.indent s.cursor
  return { s.add (.scalar text true) with cursor, allowsKey := newLine }

/-- The beginning of a flow collection. -/
def flowStart (s : Lexer) (kind : TokenKind) : Except YamlError Lexer := do
  let s ← s.saveKey
  return { s.addWord kind 1 with flowLevel := s.flowLevel + 1, allowsKey := true }

/-- The end of a flow collection. -/
def flowEnd (s : Lexer) (kind : TokenKind) : Except YamlError Lexer := do
  let s ← s.dropKey
  return { s.addWord kind 1 with flowLevel := s.flowLevel - 1, allowsKey := false }

/-- A collection of a block that begins here, unless the cursor is inside a flow collection. -/
def blockStart (s : Lexer) (kind : TokenKind) (problem : String) : Except YamlError Lexer :=
  if s.inFlow then .ok s
  else if !s.allowsKey then failure problem s.cursor.mark
  else
    match s.deepen s.cursor.column with
    | some deeper => .ok (deeper.add kind)
    | none => .ok s

/-- An item of a sequence. -/
def item (s : Lexer) : Except YamlError Lexer := do
  let s ← s.blockStart .blockSequence "sequence entries are not allowed here"
  let s ← { s with allowsKey := true }.dropKey
  return s.addWord .blockEntry 1

/-- A key behind a question mark. -/
def explicitKey (s : Lexer) : Except YamlError Lexer := do
  let s ← s.blockStart .blockMapping "mapping keys are not allowed here"
  let s ← { s with allowsKey := !s.inFlow }.dropKey
  return s.addWord .key 1

/-- A value: of the possible key of this level, or of a key behind a question mark. -/
def value (s : Lexer) : Except YamlError Lexer := do
  match s.keys.lookup s.flowLevel with
  | some key =>
    let s := { s with keys := s.keys.filter (·.1 != s.flowLevel) }.insert key .key
    let s := if s.inFlow then s
      else ((s.deepen key.mark.column).map fun deeper => deeper.insert key .blockMapping).getD s
    return { s with allowsKey := false }.addWord .value 1
  | none =>
    let s ← s.blockStart .blockMapping "mapping values are not allowed here"
    let s ← { s with allowsKey := !s.inFlow }.dropKey
    return s.addWord .value 1

/-- May a text without quotes begin here? -/
def startsPlain (s : Lexer) : Bool :=
  let c := s.cursor.here
  !(isBlankOrEnd c || "-?:,[]\x7b\x7d#&*!|>'\"%@\x60".toList.contains c) ||
    (!isBlankOrEnd (s.cursor.peek 1) && (c == '-' || (!s.inFlow && (c == '?' || c == ':'))))

/-- Reads the next token; the end of the text gives none. -/
def step (s : Lexer) : Except YamlError Lexer := do
  let s ← s.toNextToken.dropStaleKeys
  let s := s.unwind s.cursor.column
  let c := s.cursor
  let follows := isBlankOrEnd (c.peek 1)
  match c.here with
  | '[' => s.flowStart .flowSequence
  | '{' => s.flowStart .flowMapping
  | ']' => s.flowEnd .flowSequenceEnd
  | '}' => s.flowEnd .flowMappingEnd
  | ',' =>
    let s ← { s with allowsKey := true }.dropKey
    return s.addWord .flowEntry 1
  | '*' => s.withContents fun c => do
    let (name, after) ← anchorName "while scanning an alias" c
    return (.reference name, after)
  | '&' => s.withContents fun c => do
    let (name, after) ← anchorName "while scanning an anchor" c
    return (.anchor name, after)
  | '!' => s.withContents tag
  | '\'' | '"' => s.withContents fun c => do
    let (text, after) ← quotedScalar c
    return (.scalar text false, after)
  | char =>
    if char == '%' && c.column = 0 then
      let s ← s.outermost
      let (kind, cursor) ← directive c
      return { s.add kind with cursor }
    else if char == '-' && c.column = 0 && c.atSeparator then return (← s.outermost).addWord .documentStart 3
    else if char == '.' && c.column = 0 && c.atSeparator then return (← s.outermost).addWord .documentEnd 3
    else if char == '-' && follows then s.item
    else if char == '?' && (s.inFlow || follows) then s.explicitKey
    else if char == ':' && (s.inFlow || follows) then s.value
    else if char == '|' && !s.inFlow then s.blockText false
    else if char == '>' && !s.inFlow then s.blockText true
    else if s.startsPlain then s.plain
    else
      failure ("found character " ++ Text.quoted (String.singleton char) ++ " that cannot start any token") c.mark
        (some ⟨"while scanning for the next token", none⟩)

/-- The tokens from here to the end of the text. -/
def steps : Nat → Lexer → Except YamlError (List Token)
  | 0, s => .ok s.tokens
  | n + 1, s => do
    let next ← s.toNextToken.dropStaleKeys
    if next.cursor.chars.isEmpty then
      let s ← next.outermost
      return (s.add .streamEnd).tokens
    else steps n (← next.step)

end Lexer

/-- May the character stand in a text? -/
def isYamlChar (c : Char) : Bool :=
  let n := c.toNat
  n == 0x09 || n == 0x0a || n == 0x0d || (0x20 ≤ n && n ≤ 0x7e) || n == 0x85 || (0xa0 ≤ n && n ≤ 0xd7ff) ||
    (0xe000 ≤ n && n ≤ 0xfffd) || 0x10000 ≤ n

/-- The tokens of a text. -/
def tokens (text : String) : Except YamlError (List Token) :=
  let cs := text.toList
  match cs.zipIdx.find? fun (c, _) => !isYamlChar c with
  | some (c, position) => .error (.unprintable c position)
  | none => Lexer.steps (cs.length + 2) { cursor := { chars := cs } }

end FixtureCheck.Yaml
