import FixtureCheck.Json.Basic
import FixtureCheck.Number.Shortest
import FixtureCheck.Text.Quoted

/-!
# Values in messages

Messages show values in the notation `{'key': [1, None, True]}`: texts between quotes (`Text.quoted`), `None` for null.
`Json.display` writes a value in full. `Json.preview` keeps it short: texts and integers over 240 characters lose their
middle, containers of more than ten items lose theirs, and containers more than two levels down are not opened.
-/

namespace FixtureCheck.Json

/-- How numbers are written in messages. -/
def displayLayout : DecimalLayout := { minPoint := -3, maxPoint := 16, nan := "nan", infinity := "inf" }

mutual

/-- A value in full. -/
def display : Json → String
  | null => "None"
  | bool true => "True"
  | bool false => "False"
  | int n => toString n
  | float x => x.text displayLayout
  | str s => Text.quoted s
  | arr items => "[" ++ ", ".intercalate (displayItems items) ++ "]"
  | obj entries => "\x7b" ++ ", ".intercalate (displayEntries entries) ++ "\x7d"

/-- The items of an array. -/
def displayItems : List Json → List String
  | [] => []
  | item :: items => display item :: displayItems items

/-- The entries of an object. -/
def displayEntries : List (String × Json) → List String
  | [] => []
  | (key, item) :: entries => (Text.quoted key ++ ": " ++ display item) :: displayEntries entries

end

/-- A value as text: a string stands for itself, anything else is displayed. -/
def asText : Json → String
  | str s => s
  | value => value.display

/-! ## Previews -/

/-- The longest text that is shown in full. -/
def maxPreviewText : Nat := 240

/-- The most items that are shown in full. -/
def maxPreviewItems : Nat := 10

/-- A long text without its middle. -/
def shorten (s : String) : String :=
  let cs := s.toList
  if cs.length > maxPreviewText then
    String.ofList (cs.take 118 ++ ['.', '.', '.'] ++ cs.drop (cs.length - 119))
  else s

/-- A long list without its middle. -/
def shortenItems (items : List String) : List String :=
  if items.length > maxPreviewItems then items.take 5 ++ ["..."] ++ items.drop (items.length - 4) else items

mutual

/-- A value inside `depth` containers. -/
def previewAt (depth : Nat) : Json → String
  | int n => shorten (toString n)
  | str s => shorten (Text.quoted s)
  | arr [] => "[]"
  | obj [] => "\x7b\x7d"
  | arr (item :: items) =>
    if depth < 2 then "[" ++ ", ".intercalate (shortenItems (previewItems (depth + 1) (item :: items))) ++ "]"
    else "[...]"
  | obj (entry :: entries) =>
    if depth < 2 then
      "\x7b" ++ ", ".intercalate (shortenItems (previewEntries (depth + 1) (entry :: entries))) ++ "\x7d"
    else "\x7b...\x7d"
  | null => "None"
  | bool true => "True"
  | bool false => "False"
  | float x => x.text displayLayout

/-- The items of an array. -/
def previewItems (depth : Nat) : List Json → List String
  | [] => []
  | item :: items => previewAt depth item :: previewItems depth items

/-- The entries of an object. -/
def previewEntries (depth : Nat) : List (String × Json) → List String
  | [] => []
  | (key, item) :: entries =>
    (shorten (Text.quoted key) ++ ": " ++ previewAt depth item) :: previewEntries depth entries

end

/-- A value, shortened. -/
def preview (value : Json) : String := previewAt 0 value

end FixtureCheck.Json
