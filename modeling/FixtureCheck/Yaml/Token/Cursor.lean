import FixtureCheck.Yaml.Error

/-!
# A place while reading

A `Cursor` holds the characters that are left and counts lines and columns. Lines end at a newline, a carriage return,
both together, or one of the line ends of Unicode. The end of the text looks like a zero character.
-/

namespace FixtureCheck.Yaml

/-- The characters left, and the place of the first one. -/
structure Cursor where
  chars : List Char
  index : Nat := 0
  line : Nat := 0
  column : Nat := 0
  deriving Inhabited

/-- Does a line end with the character? -/
def isBreak (c : Char) : Bool := c == '\n' || c == '\r' || c == '\x85' || c == '\u2028' || c == '\u2029'

/-- Does a line or the text end with the character? -/
def isBreakOrEnd (c : Char) : Bool := c == '\x00' || isBreak c

/-- May the character stand after a word: a blank, or the end of the line or the text? -/
def isSpaceOrEnd (c : Char) : Bool := c == ' ' || isBreakOrEnd c

/-- May the character stand after an indicator: a blank or tab, or the end of the line or the text? -/
def isBlankOrEnd (c : Char) : Bool := c == '\t' || isSpaceOrEnd c

namespace Cursor

/-- The place of the cursor. -/
def mark (c : Cursor) : Mark := ⟨c.line, c.column⟩

/-- The character `n` places ahead. -/
def peek (c : Cursor) (n : Nat) : Char := c.chars.getD n '\x00'

/-- The character here. -/
def here (c : Cursor) : Char := c.chars.headD '\x00'

/-- The cursor after one character. -/
def next (c : Cursor) : Cursor :=
  match c.chars with
  | [] => c
  | char :: rest =>
    let ends := isBreak char && !(char == '\r' && rest.head? == some '\n')
    { chars := rest
      index := c.index + 1
      line := if ends then c.line + 1 else c.line
      column := if ends then 0 else if char == '\uFEFF' then c.column else c.column + 1 }

/-- The cursor after `n` characters. -/
def skip (c : Cursor) : Nat → Cursor
  | 0 => c
  | n + 1 => c.next.skip n

/-- The characters of a kind from here on, and the cursor after them. -/
def takeWhile (c : Cursor) (p : Char → Bool) : List Char × Cursor :=
  let taken := c.chars.takeWhile p
  (taken, c.skip taken.length)

/-- The cursor after the characters of a kind. -/
def skipWhile (c : Cursor) (p : Char → Bool) : Cursor := (c.takeWhile p).2

/-- The end of a line as it counts in a text, if there is one here, and the cursor after it. -/
def lineBreak (c : Cursor) : List Char × Cursor :=
  match c.chars with
  | '\r' :: '\n' :: _ => (['\n'], c.skip 2)
  | '\r' :: _ | '\n' :: _ | '\x85' :: _ => (['\n'], c.next)
  | '\u2028' :: _ => (['\u2028'], c.next)
  | '\u2029' :: _ => (['\u2029'], c.next)
  | _ => ([], c)

/-- Is there a mark between documents here? -/
def atSeparator (c : Cursor) : Bool :=
  let three := c.chars.take 3
  (three == ['-', '-', '-'] || three == ['.', '.', '.']) && isBlankOrEnd (c.peek 3)

end Cursor

/-- Failure at a place, while something else was read. -/
def failure {α : Type} (text : String) (mark : Mark) (context : Option Context := none) : Except YamlError α :=
  .error (.problem text (some mark) context)

/-- The failure that something was expected and a character was found. -/
def unexpected {α : Type} (context : String) (start : Mark) (wanted : String) (c : Cursor) : Except YamlError α :=
  failure (wanted ++ ", but found " ++ Text.quoted (String.singleton c.here)) c.mark (some ⟨context, some start⟩)

end FixtureCheck.Yaml
