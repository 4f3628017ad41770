import FixtureCheck.Number.Binary64

/-!
# JSON values

`Json` is the type of decoded JSON texts. Integers of any size and binary numbers are kept apart, as their texts are;
an object is the list of its entries in order, each key once. `Step` and `Path` name the positions inside a value, and
`get?` follows a path.
-/

namespace FixtureCheck

/-- A JSON value. -/
inductive Json where
  | null
  | bool (value : Bool)
  | int (value : Int)
  | float (value : Binary64)
  | str (value : String)
  | arr (items : List Json)
  | obj (entries : List (String × Json))
  deriving Repr, Inhabited

namespace Json

/-- The entry of a list of entries under `key`. -/
def lookup (entries : List (String × Json)) (key : String) : Option Json :=
  (entries.find? (·.1 == key)).map (·.2)

/-- The value a JSON object holds under `key`; other values hold nothing. -/
def field? (key : String) : Json → Option Json
  | obj entries => lookup entries key
  | _ => none

/-- Puts an entry into an object: a new key goes to the end, a known one keeps its place and takes the new value. -/
def insertEntry (key : String) (value : Json) : List (String × Json) → List (String × Json)
  | [] => [(key, value)]
  | (k, v) :: rest => if k == key then (k, value) :: rest else (k, v) :: insertEntry key value rest

/-- The object with the given entries, later ones overriding earlier ones of the same key. -/
def ofEntries (entries : List (String × Json)) : Json :=
  obj (entries.foldl (fun done (k, v) => insertEntry k v done) [])

/-- Is the value nothing, false, zero or empty? -/
def isEmptyLike : Json → Bool
  | null => true
  | bool b => !b
  | int n => n == 0
  | float (.finite _ m _) => m == 0
  | float _ => false
  | str s => s.isEmpty
  | arr items => items.isEmpty
  | obj entries => entries.isEmpty

/-! ## Positions -/

/-- One step into a value: an object's key or an array's index. -/
inductive Step where
  | key (name : String)
  | index (i : Nat)
  deriving DecidableEq, Repr, Inhabited

/-- A position inside a value, outermost step first. -/
abbrev Path := List Step

/-- The value at a position. -/
def get? : Json → Path → Option Json
  | value, [] => some value
  | obj entries, .key name :: rest => (lookup entries name).bind fun v => get? v rest
  | arr items, .index i :: rest => items[i]?.bind fun v => get? v rest
  | _, _ :: _ => none
termination_by _ path => path.length

end Json

end FixtureCheck
