import FixtureCheck.Text.LetterCase

/-!
# Markup of console texts

Texts for the console hold tags in brackets: `[red]` opens a style, `[/red]` closes it and `[/]` closes the last one.
Where no colours are shown only the tags go. `escape` puts a backslash in front of what looks like a tag, so that
`plain` shows it as it is; `plain` takes the tags out, and fails if one closes nothing.
-/

namespace FixtureCheck.Report

/-- Does a tag begin with the character? -/
def startsTag (c : Char) : Bool := ('a' ≤ c && c ≤ 'z') || c == '#' || c == '/' || c == '@'

/-- The contents of the tag whose bracket stands in front of the characters, and its length with both brackets. -/
def tagAt : List Char → Option (List Char)
  | [] => none
  | c :: rest =>
    let more := rest.takeWhile fun c => c != ']' && c != '['
    if startsTag c && (rest.drop more.length).head? == some ']' then some (c :: more) else none

/-- A part of a text: characters as they are, or something in brackets after backslashes that looks like a tag. -/
inductive Piece where
  | char (c : Char)
  | tag (backslashes : Nat) (content : List Char)
  deriving DecidableEq, Repr

/-- The parts of a text in front of which some backslashes wait for a tag. -/
def piecesFrom (backslashes : Nat) (cs : List Char) : List Piece :=
  match cs with
  | [] => List.replicate backslashes (.char '\\')
  | '\\' :: rest => piecesFrom (backslashes + 1) rest
  | '[' :: rest =>
    match tagAt rest with
    | some content => .tag backslashes content :: piecesFrom 0 (rest.drop (content.length + 1))
    | none => List.replicate backslashes (.char '\\') ++ .char '[' :: piecesFrom 0 rest
  | c :: rest => List.replicate backslashes (.char '\\') ++ .char c :: piecesFrom 0 rest
termination_by cs.length
decreasing_by all_goals simp only [List.length_drop, List.length_cons]; omega

/-- The parts of a text. -/
def piecesOf (cs : List Char) : List Piece := piecesFrom 0 cs

/-- A part with what looks like a tag behind one more backslash, and the backslashes in front of it doubled. -/
def escapePiece : Piece → List Char
  | .char c => [c]
  | .tag backslashes content => List.replicate (2 * backslashes + 1) '\\' ++ '[' :: content ++ [']']

/-- A text that is shown as it is. A lone backslash at its end is doubled, lest it changes what follows. -/
def escape (text : String) : String :=
  let cs := (piecesOf text.toList).flatMap escapePiece
  let endsLone := cs.getLast? == some '\\' && cs.dropLast.getLast? != some '\\'
  String.ofList (if endsLone then cs ++ ['\\'] else cs)

/-! ## Taking tags out -/

/-- A tag that closes nothing, and the place of it. -/
structure MarkupError where
  tag : String
  position : Nat
  deriving DecidableEq, Repr

/-- The message about a tag that closes nothing. -/
def MarkupError.message (e : MarkupError) : String :=
  if e.tag == "/" then s!"closing tag '[/]' at position {e.position} has nothing to close"
  else s!"closing tag '[{e.tag}]' at position {e.position} doesn't match any open tag"

/-- Short names of styles. -/
def styleNames : List (String × String) := [
  ("b", "bold"), ("d", "dim"), ("i", "italic"), ("u", "underline"), ("uu", "underline2"), ("r", "reverse"),
  ("c", "conceal"), ("s", "strike"), ("o", "overline")]

/-- The text without blanks at its ends. -/
def trimmed (cs : List Char) : List Char :=
  ((cs.dropWhile Char.isWhitespace).reverse.dropWhile Char.isWhitespace).reverse

/-- The name of a style, the same for all its spellings. -/
def styleOf (cs : List Char) : String :=
  let name := Text.lower (String.ofList (trimmed cs))
  (styleNames.lookup name).getD name

/-- The name of a tag: what stands in front of an equals sign. -/
def tagName (content : List Char) : List Char := content.takeWhile (· != '=')

/-- The open styles without the innermost one of a name; none if there is no such one. -/
def closeStyle (name : String) : List String → Option (List String)
  | [] => none
  | style :: styles => if style == name then some styles else (closeStyle name styles).map (style :: ·)

/-- The open styles after a tag. -/
def applyTag (position : Nat) (content : List Char) (styles : List String) : Except MarkupError (List String) :=
  match tagName content with
  | '/' :: name =>
    let closed := match trimmed name with
      | [] => if styles.isEmpty then none else some styles.tail
      | name => closeStyle (styleOf name) styles
    let shown := if (trimmed name).isEmpty then "/" else String.ofList content
    closed.elim (.error ⟨shown, position⟩) .ok
  | name => .ok (styleOf name :: styles)

/-- Characters without the backslashes in front of brackets. -/
def dropBackslashes : List Char → List Char
  | '\\' :: '[' :: rest => '[' :: dropBackslashes rest
  | c :: rest => c :: dropBackslashes rest
  | [] => []

/-- The text of some parts from a position on, where `run` holds the characters since the last tag in reverse. -/
def plainPieces (position : Nat) (styles : List String) (run : List Char) : List Piece → Except MarkupError (List Char)
  | [] => .ok (dropBackslashes run.reverse)
  | .char c :: pieces => plainPieces (position + 1) styles (c :: run) pieces
  | .tag backslashes content :: pieces => do
    let before := dropBackslashes run.reverse ++ List.replicate (backslashes / 2) '\\'
    let after := position + backslashes + content.length + 2
    if backslashes % 2 = 1 then
      let rest ← plainPieces after styles [] pieces
      return before ++ '[' :: content ++ ']' :: rest
    else
      let styles ← applyTag (position + backslashes) content styles
      return before ++ (← plainPieces after styles [] pieces)

/-- A text without its tags. -/
def plain (text : String) : Except MarkupError String :=
  (plainPieces 0 [] [] (piecesOf text.toList)).map String.ofList

end FixtureCheck.Report
