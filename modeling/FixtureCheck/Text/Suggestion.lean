import FixtureCheck.Text.LetterCase

/-!
# Suggestions for misspelt names

`suggestions` keeps the options within an edit distance of about two fifths of the input's length and lists the nearest
first, equally near ones in natural order (numbers inside names count as numbers). The distance counts insertions,
deletions, substitutions and swaps of neighbours, on lower-cased texts; two texts that differ in case only are at
distance one. `didYouMean` words the best of them as a question.
-/

namespace FixtureCheck.Text

/-! ## Edit distance -/

/-- A row of the distance table below `up` and `upper` (the row above `up`), for the character `x` after `previous`. -/
def distanceRow (i : Nat) (x : Char) (previous : Option Char) (b : List Char) (up upper : List Nat) : List Nat :=
  go i none b up upper []
where
  /-- Cells from left to right: `left` is the cell just made, `done` the cells before it in reverse. -/
  go (left : Nat) (y' : Option Char) : List Char → List Nat → List Nat → List Nat → List Nat
    | y :: b, diagonal :: above :: up, upper, done =>
      let plain := min (min (above + 1) (left + 1)) (diagonal + if x == y then 0 else 1)
      let cell :=
        match previous, y', upper with
        | some p, some y', corner :: _ => if x == y' && p == y then min plain (corner + 1) else plain
        | _, _, _ => plain
      let upper := if y'.isSome then upper.tail else upper
      go cell (some y) b (above :: up) upper (left :: done)
    | _, _, _, done => (left :: done).reverse

/-- The edit distance of two texts, with swaps of neighbouring characters. -/
def editDistance (a b : List Char) : Nat :=
  let (_, _, _, last) := a.foldl
    (fun (i, previous, upper, up) x => (i + 1, some x, up, distanceRow i x previous b up upper))
    (1, none, [], List.range (b.length + 1))
  last.getLastD 0

/-- How far `option` is from `input`; a pure change of case is one edit. -/
def distance (input option : String) : Nat :=
  if input == option then 0
  else
    let a := lower input
    let b := lower option
    if a == b then 1 else editDistance b.toList a.toList

/-! ## Natural order -/

/-- The pieces of a text: its runs of digits, and the texts between them, alternately and beginning with a text. -/
def naturalPieces (s : List Char) : List (List Char) :=
  go false [] s
where
  /-- `piece` holds the current piece in reverse. -/
  go (inDigits : Bool) (piece : List Char) : List Char → List (List Char)
    | [] => if inDigits then [piece.reverse, []] else [piece.reverse]
    | c :: rest =>
      if c.isDigit == inDigits then go inDigits (c :: piece) rest
      else piece.reverse :: go c.isDigit [c] rest

/-- The number a run of digits stands for. -/
def digitsValue (s : List Char) : Nat :=
  s.foldl (fun n c => 10 * n + (c.toNat - '0'.toNat)) 0

/-- Compares pieces: texts by code points, runs of digits by value and then by code points. -/
def comparePieces : Bool → List (List Char) → List (List Char) → Ordering
  | _, [], [] => .eq
  | _, [], _ :: _ => .lt
  | _, _ :: _, [] => .gt
  | isNumber, a :: as, b :: bs =>
    let byText := compare (String.ofList a) (String.ofList b)
    let here := if isNumber then (compare (digitsValue a) (digitsValue b)).then byText else byText
    here.then (comparePieces (!isNumber) as bs)

/-- Natural order of names, in which `V2` stands before `V10`. -/
def naturalCompare (a b : String) : Ordering :=
  comparePieces false (naturalPieces a.toList) (naturalPieces b.toList)

/-! ## Suggestions -/

/-- The options near enough to `input`, nearest first. -/
def suggestions (input : String) (options : List String) : List String :=
  let threshold := input.length * 2 / 5 + 1
  let near := options.eraseDups.filterMap fun option =>
    let d := distance input option
    if d ≤ threshold then some (d, option) else none
  (near.mergeSort fun (d, a) (e, b) => (compare d e).then (naturalCompare a b) != .gt).map (·.2)

/-- Single quotes around a name. -/
def inQuotes (s : String) : String := "'" ++ s ++ "'"

/-- An enumeration of alternatives: `a`, `a or b`, `a, b, or c`. -/
def alternatives : List String → String
  | [] => ""
  | [a] => a
  | [a, b] => a ++ " or " ++ b
  | items => ", ".intercalate items.dropLast ++ ", or " ++ items.getLastD ""

/-- The question that offers at most five suggestions, and nothing when there are none; `subject` says what they are. -/
def didYouMean (options : List String) (subject : String := "") : String :=
  match options.take 5 with
  | [] => ""
  | best =>
    " Did you mean " ++ (if subject.isEmpty then "" else subject ++ " ") ++ alternatives (best.map inQuotes) ++ "?"

end FixtureCheck.Text
