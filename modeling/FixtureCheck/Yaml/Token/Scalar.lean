import FixtureCheck.Yaml.Token.Cursor

/-!
# Scalars of YAML

`blockScalar` reads the lines of a literal or folded text, `quotedScalar` a text between single or double quotes and
`plainScalar` a text without quotes. Lines are folded: a single line end counts as a blank, several count one less.
Repetitions are bounded by the number of characters.
-/

namespace FixtureCheck.Yaml

/-! ## Literal and folded texts -/

/-- What becomes of the line ends at the end of a text. -/
inductive Chomping where
  | clip
  | strip
  | keep
  deriving DecidableEq, Repr

/-- The chomping that a character asks for. -/
def chomping? : Char → Option Chomping
  | '+' => some .keep
  | '-' => some .strip
  | _ => none

/-- The indentation that a digit asks for. -/
def blockIndent (start : Mark) (c : Cursor) : Except YamlError (Option Nat × Cursor) :=
  if c.here.isDigit then
    if c.here == '0' then
      failure "expected indentation indicator in the range 1-9, but found 0" c.mark
        (some ⟨"while scanning a block scalar", some start⟩)
    else .ok (some (c.here.toNat - '0'.toNat), c.next)
  else .ok (none, c)

/-- The chomping and the indentation at the head of a block, in either order. -/
def blockHead (start : Mark) (c : Cursor) : Except YamlError (Chomping × Option Nat × Cursor) := do
  let (chomping, indent, c) ← match chomping? c.here with
    | some chomping =>
      let (indent, c) ← blockIndent start c.next
      pure (chomping, indent, c)
    | none =>
      let (indent, c) ← blockIndent start c
      match indent, chomping? c.here with
      | some _, some chomping => pure (chomping, indent, c.next)
      | _, _ => pure (.clip, indent, c)
  if !isSpaceOrEnd c.here then
    unexpected "while scanning a block scalar" start "expected chomping or indentation indicators" c
  else return (chomping, indent, c)

/-- The rest of a line: blanks and perhaps a comment. -/
def ignoredLine (context : String) (start : Mark) (c : Cursor) : Except YamlError Cursor := do
  let c := c.skipWhile (· == ' ')
  let c := if c.here == '#' then c.skipWhile (!isBreakOrEnd ·) else c
  if !isBreakOrEnd c.here then unexpected context start "expected a comment or a line break" c
  else return c.lineBreak.2

/-- Empty lines at the head of a block, and the greatest indentation among them. -/
def headBreaks : Nat → List Char → Nat → Cursor → List Char × Nat × Cursor
  | 0, breaks, deepest, c => (breaks, deepest, c)
  | n + 1, breaks, deepest, c =>
    if c.here == ' ' then headBreaks n breaks (max deepest c.next.column) c.next
    else if isBreak c.here then headBreaks n (breaks ++ c.lineBreak.1) deepest c.lineBreak.2
    else (breaks, deepest, c)

/-- Blanks up to a column. -/
def indentTo (indent : Nat) : Nat → Cursor → Cursor
  | 0, c => c
  | n + 1, c => if c.column < indent && c.here == ' ' then indentTo indent n c.next else c

/-- Empty lines inside a block. -/
def blockBreaks (indent : Nat) : Nat → List Char → Cursor → List Char × Cursor
  | 0, breaks, c => (breaks, c)
  | n + 1, breaks, c =>
    let c := indentTo indent c.chars.length c
    if isBreak c.here then blockBreaks indent n (breaks ++ c.lineBreak.1) c.lineBreak.2 else (breaks, c)

/-- The lines of a block: the text so far, the last line's end and the line ends after it. -/
def blockLines (folded : Bool) (indent : Nat) :
    Nat → List Char → List Char → List Char → Cursor → List Char × List Char × List Char × Cursor
  | 0, text, ending, breaks, c => (text, ending, breaks, c)
  | n + 1, text, ending, breaks, c =>
    if c.column != indent || c.chars.isEmpty then (text, ending, breaks, c)
    else
      let startsWord := c.here != ' ' && c.here != '\t'
      let (line, after) := c.takeWhile (!isBreakOrEnd ·)
      let text := text ++ breaks ++ line
      let (ending, after) := after.lineBreak
      let (breaks, after) := blockBreaks indent after.chars.length [] after
      if after.column != indent || after.chars.isEmpty then (text, ending, breaks, after)
      else if folded && ending == ['\n'] && startsWord && after.here != ' ' && after.here != '\t' then
        blockLines folded indent n (if breaks.isEmpty then text ++ [' '] else text) ending breaks after
      else blockLines folded indent n (text ++ ending) ending breaks after

/-- A literal or folded text below lines indented by `indent`. -/
def blockScalar (folded : Bool) (indent : Int) (c : Cursor) : Except YamlError (String × Cursor) := do
  let start := c.mark
  let (chomping, increment, c) ← blockHead start c.next
  let c ← ignoredLine "while scanning a block scalar" start c
  let least := (max 1 (indent + 1)).toNat
  let (indent, breaks, c) := match increment with
    | none =>
      let (breaks, deepest, c) := headBreaks c.chars.length [] 0 c
      (max least deepest, breaks, c)
    | some increment =>
      let indent := least + increment - 1
      let (breaks, c) := blockBreaks indent c.chars.length [] c
      (indent, breaks, c)
  let (text, ending, breaks, c) := blockLines folded indent c.chars.length [] [] breaks c
  let text := text ++ if chomping = .strip then [] else ending
  return (String.ofList (text ++ if chomping = .keep then breaks else []), c)

/-! ## Texts between quotes -/

/-- The character that an escape stands for. -/
def shortEscape? : Char → Option Char
  | '0' => some '\x00'
  | 'a' => some '\x07'
  | 'b' => some '\x08'
  | 't' | '\t' => some '\t'
  | 'n' => some '\n'
  | 'v' => some '\x0b'
  | 'f' => some '\x0c'
  | 'r' => some '\r'
  | 'e' => some '\x1b'
  | ' ' => some ' '
  | '"' => some '"'
  | '\\' => some '\\'
  | '/' => some '/'
  | 'N' => some '\x85'
  | '_' => some '\xa0'
  | 'L' => some '\u2028'
  | 'P' => some '\u2029'
  | _ => none

/-- The number of digits of an escape by code point. -/
def escapeDigits? : Char → Option Nat
  | 'x' => some 2
  | 'u' => some 4
  | 'U' => some 8
  | _ => none

/-- The value of a hexadecimal digit. -/
def hexValue? (c : Char) : Option Nat :=
  if c.isDigit then some (c.toNat - '0'.toNat)
  else if 'a' ≤ c && c ≤ 'f' then some (c.toNat - 'a'.toNat + 10)
  else if 'A' ≤ c && c ≤ 'F' then some (c.toNat - 'A'.toNat + 10)
  else none

/-- The character of `n` hexadecimal digits. -/
def codeEscape (start : Mark) (n : Nat) (c : Cursor) : Except YamlError (Char × Cursor) :=
  let digits := (List.range n).map c.peek
  match digits.find? fun d => (hexValue? d).isNone with
  | some d =>
    failure
      (s!"expected escape sequence of {n} hexadecimal numbers, but found " ++ Text.quoted (String.singleton d))
      c.mark (some ⟨"while scanning a double-quoted scalar", some start⟩)
  | none =>
    let code := digits.foldl (fun code d => 16 * code + (hexValue? d).getD 0) 0
    if code < 0x110000 then .ok (Char.ofNat code, c.skip n) else .error (.number "chr() arg not in range(0x110000)")

/-- Empty lines inside a text between quotes. -/
def quotedBreaks (start : Mark) : Nat → List Char → Cursor → Except YamlError (List Char × Cursor)
  | 0, breaks, c => .ok (breaks, c)
  | n + 1, breaks, c =>
    if c.atSeparator then
      failure "found unexpected document separator" c.mark (some ⟨"while scanning a quoted scalar", some start⟩)
    else
      let c := c.skipWhile fun char => char == ' ' || char == '\t'
      if isBreak c.here then quotedBreaks start n (breaks ++ c.lineBreak.1) c.lineBreak.2 else .ok (breaks, c)

/-- A text between quotes from the character after the first quote on. -/
def quotedText (quote : Char) (start : Mark) : Nat → List Char → Cursor → Except YamlError (List Char × Cursor)
  | 0, text, c => .ok (text, c)
  | n + 1, text, c =>
    let isDouble := quote == '"'
    if c.chars.isEmpty then
      failure "found unexpected end of stream" c.mark (some ⟨"while scanning a quoted scalar", some start⟩)
    else if c.here == quote then
      if !isDouble && c.peek 1 == quote then quotedText quote start n (text ++ [quote]) (c.skip 2)
      else .ok (text, c.next)
    else if c.here == ' ' || c.here == '\t' || isBreak c.here then do
      let (blanks, after) := c.takeWhile fun char => char == ' ' || char == '\t'
      if isBreak after.here then
        let (ending, after) := after.lineBreak
        let (breaks, after) ← quotedBreaks start after.chars.length [] after
        let fold := if ending != ['\n'] then ending else if breaks.isEmpty then [' '] else []
        quotedText quote start n (text ++ fold ++ breaks) after
      else quotedText quote start n (text ++ blanks) after
    else if isDouble && c.here == '\\' then do
      let c := c.next
      match shortEscape? c.here, escapeDigits? c.here with
      | some char, _ => quotedText quote start n (text ++ [char]) c.next
      | none, some digits =>
        let (char, c) ← codeEscape start digits c.next
        quotedText quote start n (text ++ [char]) c
      | none, none =>
        if isBreak c.here then
          let (breaks, c) ← quotedBreaks start c.chars.length [] c.lineBreak.2
          quotedText quote start n (text ++ breaks) c
        else
          failure ("found unknown escape character " ++ Text.quoted (String.singleton c.here)) c.mark
            (some ⟨"while scanning a double-quoted scalar", some start⟩)
    else quotedText quote start n (text ++ [c.here]) c.next

/-- A text between quotes. -/
def quotedScalar (c : Cursor) : Except YamlError (String × Cursor) := do
  let (text, after) ← quotedText c.here c.mark (c.chars.length + 1) [] c.next
  return (String.ofList text, after)

/-! ## Texts without quotes -/

/-- Does a text without quotes end in front of the characters? -/
def endsPlain (inFlow : Bool) : List Char → Bool
  | [] => true
  | c :: rest =>
    let follower := rest.headD '\x00'
    isBlankOrEnd c ||
      (c == ':' && (isBlankOrEnd follower || (inFlow && [',', '[', ']', '{', '}'].contains follower))) ||
      (inFlow && [',', '?', '[', ']', '{', '}'].contains c)

/-- The characters of a text without quotes up to a blank or its end. -/
def plainWord (inFlow : Bool) : List Char → List Char
  | [] => []
  | c :: rest => if endsPlain inFlow (c :: rest) then [] else c :: plainWord inFlow rest

/-- Empty lines inside a text without quotes; none in front of a mark between documents. -/
def plainBreaks : Nat → List Char → Cursor → Option (List Char) × Cursor
  | 0, breaks, c => (some breaks, c)
  | n + 1, breaks, c =>
    if c.here == ' ' then plainBreaks n breaks c.next
    else if isBreak c.here then
      let (ending, c) := c.lineBreak
      if c.atSeparator then (none, c) else plainBreaks n (breaks ++ ending) c
    else (some breaks, c)

/-- What stands between two words of a text without quotes, and whether a line ended there. -/
def plainBlanks (c : Cursor) : List Char × Bool × Cursor :=
  let (blanks, c) := c.takeWhile (· == ' ')
  if isBreak c.here then
    let (ending, c) := c.lineBreak
    if c.atSeparator then ([], true, c)
    else
      match plainBreaks c.chars.length [] c with
      | (none, c) => ([], true, c)
      | (some breaks, c) =>
        let fold := if ending != ['\n'] then ending else if breaks.isEmpty then [' '] else []
        (fold ++ breaks, true, c)
  else (blanks, false, c)

/-- A text without quotes, with what stands in front of the next word; tells whether a line ended after it. -/
def plainText (inFlow : Bool) (indent : Int) : Nat → List Char → List Char → Bool → Cursor → List Char × Bool × Cursor
  | 0, text, _, newLine, c => (text, newLine, c)
  | n + 1, text, blanks, newLine, c =>
    let word := plainWord inFlow c.chars
    if c.here == '#' || word.isEmpty then (text, newLine, c)
    else
      let text := text ++ blanks ++ word
      let (blanks, newLine, c) := plainBlanks (c.skip word.length)
      if blanks.isEmpty || c.here == '#' || (!inFlow && (c.column : Int) < indent) then (text, newLine, c)
      else plainText inFlow indent n text blanks newLine c

/-- A text without quotes below lines indented by `indent`; tells whether a line ended after it. -/
def plainScalar (inFlow : Bool) (indent : Int) (c : Cursor) : String × Bool × Cursor :=
  let (text, newLine, c) := plainText inFlow (indent + 1) c.chars.length [] [] false c
  (String.ofList text, newLine, c)

end FixtureCheck.Yaml
