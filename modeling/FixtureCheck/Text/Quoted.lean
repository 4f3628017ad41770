import FixtureCheck.Text.Printable

/-!
# Quoted text

Texts inside messages are written between quotes: single quotes, or double quotes for a text that holds a single quote
and no double one. Backslashes and the chosen quote are escaped, tab, newline and carriage return have short escapes,
and every other unprintable character is written by its code point (`escapeChar`).
-/

namespace FixtureCheck.Text

/-- The lower-case hexadecimal digits of `n`, padded with zeros to at least `width`. -/
def hex (width n : Nat) : List Char :=
  let digits := Nat.toDigits 16 n
  List.replicate (width - digits.length) '0' ++ digits

/-- One character as it stands between the quotes `quote`. -/
def escapeChar (quote c : Char) : List Char :=
  if c == quote || c == '\\' then ['\\', c]
  else if c == '\t' then ['\\', 't']
  else if c == '\n' then ['\\', 'n']
  else if c == '\r' then ['\\', 'r']
  else if isPrintable c then [c]
  else if c.toNat < 0x100 then '\\' :: 'x' :: hex 2 c.toNat
  else if c.toNat < 0x10000 then '\\' :: 'u' :: hex 4 c.toNat
  else '\\' :: 'U' :: hex 8 c.toNat

/-- The quote a text is written with. -/
def quoteFor (s : List Char) : Char :=
  if s.contains '\'' && !s.contains '"' then '"' else '\''

/-- A text between quotes, on one line and printable throughout. -/
def quoted (s : String) : String :=
  let quote := quoteFor s.toList
  String.ofList (quote :: s.toList.flatMap (escapeChar quote) ++ [quote])

end FixtureCheck.Text
