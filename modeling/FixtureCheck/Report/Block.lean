import FixtureCheck.Host
import FixtureCheck.Report.Markup

/-!
# What is printed at once

A `Block` is a line of markup or a table with two columns of markup. `Block.text` is what the console shows of it: tags
are taken out, control characters are left out, tabs reach the next column that is a multiple of eight, and every cell
of a table stands between blanks and is as wide as its column. A block whose markup is wrong is not shown at all.
-/

namespace FixtureCheck.Report

/-- Something that is printed at once. -/
inductive Block where
  | line (markup : String)
  | table (rows : List (String × String))
  deriving DecidableEq, Repr

/-! ## Characters -/

/-- Does the console leave the character out: a bell, a backspace, a tab or feed that goes down, or a carriage
return? -/
def isLeftOut (c : Char) : Bool := [7, 8, 11, 12, 13].contains c.toNat

/-- The characters with blanks for tabs, where `column` counts those in front of them in their line. -/
def expandTabs (column : Nat) : List Char → List Char
  | [] => []
  | '\t' :: rest =>
    let width := 8 - column % 8
    List.replicate width ' ' ++ expandTabs (column + width) rest
  | '\n' :: rest => '\n' :: expandTabs 0 rest
  | c :: rest => c :: expandTabs (column + 1) rest

/-- The characters that the console shows of some markup. -/
def shown (markup : String) : Except MarkupError (List Char) :=
  (plain markup).map fun text => expandTabs 0 (text.toList.filter (!isLeftOut ·))

/-! ## Tables -/

/-- The number of columns that characters take; control characters take none. -/
def width (cs : List Char) : Nat := cs.countP fun c => 0x20 ≤ c.toNat && !(0x7f ≤ c.toNat && c.toNat < 0xa0)

/-- The lines of a cell. -/
def cellLines : List Char → List (List Char)
  | [] => [[]]
  | c :: cs =>
    if c == '\n' then [] :: cellLines cs
    else
      match cellLines cs with
      | line :: lines => (c :: line) :: lines
      | [] => [[c]]

/-- The width of a column. -/
def columnWidth (cells : List (List (List Char))) : Nat := (cells.flatMap (·.map width)).foldl max 0

/-- A line of a cell in a column of some width. -/
def padded (columns : Nat) (line : List Char) : List Char :=
  ' ' :: line ++ List.replicate (columns - width line) ' ' ++ [' ']

/-- A row of a table whose columns have the widths `left` and `right`. -/
def rowText (left right : Nat) (row : List (List Char) × List (List Char)) : List Char :=
  (List.range (max row.1.length row.2.length)).flatMap fun i =>
    padded left (row.1.getD i []) ++ padded right (row.2.getD i []) ++ ['\n']

/-- The cells of a row. -/
def rowCells (row : String × String) : Except MarkupError (List (List Char) × List (List Char)) := do
  return (cellLines (← shown row.1), cellLines (← shown row.2))

/-- What the console shows of a table. -/
def tableText (rows : List (String × String)) : Except MarkupError (List Char) := do
  let cells ← rows.mapM rowCells
  return cells.flatMap (rowText (columnWidth (cells.map (·.1))) (columnWidth (cells.map (·.2))))

/-- What the console shows of a block. -/
def Block.text : Block → Except MarkupError String
  | line markup => (shown markup).map fun cs => String.ofList (cs ++ ['\n'])
  | table rows => (tableText rows).map String.ofList

/-! ## Printing -/

/-- Why a report cannot be printed to its end. -/
inductive ReportError where
  | markup (cause : MarkupError)
  /-- A value that is no text stands where a text is shown as it is. -/
  | notText (kind : String)
  deriving DecidableEq, Repr

/-- The message about an error. -/
def ReportError.message : ReportError → String
  | markup cause => cause.message
  | notText kind => s!"expected string or bytes-like object, got '{kind}'"

/-- Prints what can be made of some blocks up to the first one that fails. -/
def printBlocks {m : Type → Type} [Monad m] [Host m] (blocks : List (Except ReportError Block)) :
    ExceptT ReportError m Unit :=
  blocks.forM fun block => do
    let text ← MonadExcept.ofExcept (block.bind fun block => block.text.mapError .markup)
    Host.print text

/-- A list of values with their names, under a title. -/
def namedValues (title : String) (rows : List (String × String)) : List Block :=
  [.line s!"\n[bold cyan]{title}[/bold cyan]\n", .table rows, .line ""]

end FixtureCheck.Report
