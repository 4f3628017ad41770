import FixtureCheck.Json.Display

/-!
# Reading values of unknown shape

Documents from outside may have any shape. `entry` asks for the value under a key that has to be there, `entry?` for one
that may be missing, `items` for the parts of a container and `holds` for a key; each fails on a value of a kind that
cannot answer, and `AccessError` says how.
-/

namespace FixtureCheck.Json

/-- The name of a value's kind in messages. -/
def kindName : Json → String
  | null => "NoneType"
  | bool _ => "bool"
  | int _ => "int"
  | float _ => "float"
  | str _ => "str"
  | arr _ => "list"
  | obj _ => "dict"

/-- Why a value cannot be read. -/
inductive AccessError where
  | absent (key : String)
  | noEntries (kind : String)
  | noMember (kind member : String)
  | textIndex
  | arrayIndex
  | noItems (kind : String)
  | noContents (kind : String)
  | noKey (kind : String)
  | noLength (kind : String)
  deriving DecidableEq, Repr

/-- The message about a failure. -/
def AccessError.message : AccessError → String
  | absent key => Text.quoted key
  | noEntries kind => s!"'{kind}' object is not subscriptable"
  | noMember kind member => s!"'{kind}' object has no attribute '{member}'"
  | textIndex => "string indices must be integers, not 'str'"
  | arrayIndex => "list indices must be integers or slices, not str"
  | noItems kind => s!"'{kind}' object is not iterable"
  | noContents kind => s!"argument of type '{kind}' is not iterable"
  | noKey kind => s!"unhashable type: '{kind}'"
  | noLength kind => s!"object of type '{kind}' has no len()"

/-- The value under a key that has to be there. -/
def entry (key : String) : Json → Except AccessError Json
  | obj entries => ((lookup entries key).elim (.error (.absent key)) .ok)
  | str _ => .error .textIndex
  | arr _ => .error .arrayIndex
  | value => .error (.noEntries value.kindName)

/-- The value under a key; null if there is none. -/
def entry? (key : String) : Json → Except AccessError Json
  | obj entries => .ok ((lookup entries key).getD null)
  | value => .error (.noMember value.kindName "get")

/-- The parts of a value one after the other: items, keys or characters. -/
def items : Json → Except AccessError (List Json)
  | arr items => .ok items
  | obj entries => .ok (entries.map fun (key, _) => str key)
  | str s => .ok (s.toList.map fun c => str (String.singleton c))
  | value => .error (.noItems value.kindName)

/-- Does a text contain another one? -/
def containsText (part : List Char) : List Char → Bool
  | [] => part.isEmpty
  | c :: rest => part.isPrefixOf (c :: rest) || containsText part rest

/-- Does a value hold a text: as a key, an item or a part? -/
def holds (text : String) : Json → Except AccessError Bool
  | obj entries => .ok (entries.any (·.1 == text))
  | arr items => .ok (items.any fun
    | str s => s == text
    | _ => false)
  | str s => .ok (containsText text.toList s.toList)
  | value => .error (.noContents value.kindName)

/-- Can the value be a key? -/
def checkKey : Json → Except AccessError Unit
  | arr _ => .error (.noKey "list")
  | obj _ => .error (.noKey "dict")
  | _ => .ok ()

/-- Is the value missing or a text? -/
def isTextOrNull : Json → Bool
  | null | str _ => true
  | _ => false

end FixtureCheck.Json
