import FixtureCheck.Json.Basic
import FixtureCheck.Number.Shortest
import FixtureCheck.Text.Quoted

/-!
# Writing JSON

`Json.render` writes a value as ASCII text in a `Layout`: `compactLayout` has no blanks, `spacedLayout` is one line,
`indentedLayout` has two blanks a level. Characters beyond ASCII are escaped by their UTF-16 units, numbers have their
shortest texts. `sortKeys` orders the keys of every object by code points, so `canonical`, the text of the sorted value,
is the same for values that differ in the order of keys only.
-/

namespace FixtureCheck.Json

/-- How JSON numbers are written: an exponent from `1e16` on and below `1e-4`. -/
def numberLayout : DecimalLayout := { minPoint := -3, maxPoint := 16, nan := "NaN", infinity := "Infinity" }

/-! ## Strings -/

/-- A UTF-16 unit as an escape. -/
def escapeUnit (unit : Nat) : List Char := '\\' :: 'u' :: Text.hex 4 unit

/-- One character inside a JSON string. -/
def escapeChar (c : Char) : List Char :=
  match c with
  | '"' => ['\\', '"']
  | '\\' => ['\\', '\\']
  | '\n' => ['\\', 'n']
  | '\r' => ['\\', 'r']
  | '\t' => ['\\', 't']
  | '\x0c' => ['\\', 'f']
  | '\x08' => ['\\', 'b']
  | c =>
    let n := c.toNat
    if 0x20 ≤ n && n ≤ 0x7e then [c]
    else if n < 0x10000 then escapeUnit n
    else escapeUnit (0xD800 + (n - 0x10000) / 0x400) ++ escapeUnit (0xDC00 + (n - 0x10000) % 0x400)

/-- A JSON string. -/
def renderString (s : String) : List Char :=
  '"' :: s.toList.flatMap escapeChar ++ ['"']

/-! ## Values -/

/-- Where blanks go: before every item and closing bracket, by depth, and after commas and colons. -/
structure Layout where
  lineBreak : Nat → List Char
  comma : List Char
  colon : List Char

/-- No blanks. -/
def compactLayout : Layout := ⟨fun _ => [], [','], [':']⟩

/-- On one line, a blank after each comma and colon. -/
def spacedLayout : Layout := ⟨fun _ => [], [',', ' '], [':', ' ']⟩

/-- An item a line, two blanks a level. -/
def indentedLayout : Layout := ⟨fun depth => '\n' :: List.replicate (2 * depth) ' ', [','], [':', ' ']⟩

mutual

/-- A value at a depth. -/
def renderAt (layout : Layout) (depth : Nat) : Json → List Char
  | null => "null".toList
  | bool true => "true".toList
  | bool false => "false".toList
  | int n => (toString n).toList
  | float x => (x.text numberLayout).toList
  | str s => renderString s
  | arr [] => ['[', ']']
  | arr (item :: items) =>
    '[' :: (layout.lineBreak (depth + 1) ++ renderAt layout (depth + 1) item ++ renderItems layout (depth + 1) items) ++
      layout.lineBreak depth ++ [']']
  | obj [] => ['{', '}']
  | obj ((key, item) :: entries) =>
    '{' :: (layout.lineBreak (depth + 1) ++ renderString key ++ layout.colon ++ renderAt layout (depth + 1) item ++
      renderEntries layout (depth + 1) entries) ++ layout.lineBreak depth ++ ['}']

/-- The items of an array after the first one. -/
def renderItems (layout : Layout) (depth : Nat) : List Json → List Char
  | [] => []
  | item :: items =>
    layout.comma ++ layout.lineBreak depth ++ renderAt layout depth item ++ renderItems layout depth items

/-- The entries of an object after the first one. -/
def renderEntries (layout : Layout) (depth : Nat) : List (String × Json) → List Char
  | [] => []
  | (key, item) :: entries =>
    layout.comma ++ layout.lineBreak depth ++ renderString key ++ layout.colon ++ renderAt layout depth item ++
      renderEntries layout depth entries

end

/-- The text of a value in a layout. -/
def render (layout : Layout) (value : Json) : String := String.ofList (renderAt layout 0 value)

/-- The text without blanks. -/
def compact (value : Json) : String := render compactLayout value

/-- The text with an item a line. -/
def indented (value : Json) : String := render indentedLayout value

/-! ## Canonical text -/

/-- Entries in the order of their keys' code points. -/
def sortEntries (entries : List (String × Json)) : List (String × Json) :=
  entries.mergeSort fun a b => decide (a.1 ≤ b.1)

mutual

/-- The value with the keys of every object in order. -/
def sortKeys : Json → Json
  | arr items => arr (sortKeysItems items)
  | obj entries => obj (sortEntries (sortKeysEntries entries))
  | value => value

/-- Every item with its keys in order. -/
def sortKeysItems : List Json → List Json
  | [] => []
  | item :: items => sortKeys item :: sortKeysItems items

/-- Every entry's value with its keys in order. -/
def sortKeysEntries : List (String × Json) → List (String × Json)
  | [] => []
  | (key, item) :: entries => (key, sortKeys item) :: sortKeysEntries entries

end

/-- The text that values have in common when they differ in the order of keys only. -/
def canonical (value : Json) : String := render spacedLayout (sortKeys value)

end FixtureCheck.Json
