/-!
# Block strings

A block string stands between triple quotes and keeps its line structure. `dedent` removes the indentation its lines
have in common, the first line apart, and the blank lines at both ends; `printBlock` writes a value as a block string,
on lines of its own when that reads better or when the quotes would otherwise run into the text.
-/

namespace FixtureCheck.GraphQL

/-- Blanks that indent a line. -/
def isIndent (c : Char) : Bool := c == ' ' || c == '\t'

/-- The number of leading blanks. -/
def indentOf (line : List Char) : Nat := (line.takeWhile isIndent).length

/-- Does a line hold blanks only? -/
def isBlankLine (line : List Char) : Bool := line.all isIndent

/-- Removes the common indentation of the lines after the first, and blank lines at both ends. -/
def dedent (lines : List (List Char)) : List (List Char) :=
  let indents := ((lines.drop 1).filter (!isBlankLine ·)).map indentOf
  let common := indents.min?
  let cut :=
    match lines with
    | [] => []
    | first :: others =>
      first :: others.map fun line =>
        match common with
        | some n => line.drop n
        | none => []
  let kept := (lines.zip cut).dropWhile fun (line, _) => isBlankLine line
  ((kept.reverse.dropWhile fun (line, _) => isBlankLine line).reverse).map (·.2)

/-- Puts a backslash in front of every triple quote. -/
def escapeTripleQuotes : List Char → List Char
  | '"' :: '"' :: '"' :: rest => '\\' :: '"' :: '"' :: '"' :: escapeTripleQuotes rest
  | c :: rest => c :: escapeTripleQuotes rest
  | [] => []

/-- Characters that end a line in running text. -/
def isLineEnd (c : Char) : Bool :=
  c == '\n' || c == '\r' || c == '\x0b' || c == '\x0c' || c == '\x1c' || c == '\x1d' || c == '\x1e' || c == '\x85' ||
    c == '\u2028' || c == '\u2029'

/-- The lines of running text; a line end at the very end opens no further line. -/
def textLines (cs : List Char) : List (List Char) :=
  go [] cs
where
  /-- `line` holds the current line in reverse. -/
  go (line : List Char) : List Char → List (List Char)
    | [] => if line.isEmpty then [] else [line.reverse]
    | '\r' :: '\n' :: rest => line.reverse :: go [] rest
    | c :: rest => if isLineEnd c then line.reverse :: go [] rest else go (c :: line) rest

/-- A value as a block string. -/
def printBlock (value : List Char) : List Char :=
  let escaped := escapeTripleQuotes value
  let lines :=
    match textLines escaped with
    | [] => [[]]
    | lines => lines
  let singleLine := lines.length == 1
  let indented := lines.length > 1 && (lines.drop 1).all fun line => line.isEmpty || (line.head?.any isIndent)
  let endsTripleQuoted := ['\\', '"', '"', '"'].isSuffixOf escaped
  let forceTrailing := (value.getLast? == some '"' && !endsTripleQuoted) || value.getLast? == some '\\'
  let spread := !singleLine || value.length > 70 || forceTrailing || indented || endsTripleQuoted
  let skipLeading := singleLine && value.head?.any isIndent
  let quotes := ['"', '"', '"']
  quotes ++ (if (spread && !skipLeading) || indented then ['\n'] else []) ++ escaped ++
    (if spread || forceTrailing then ['\n'] else []) ++ quotes

end FixtureCheck.GraphQL
