import FixtureCheck.Json.Printer
import FixtureCheck.Yaml.Scalar

/-!
# Nodes of YAML

A `Node` is a scalar, a sequence or a mapping with a tag. `Node.value` makes a plain value of it: entries that merge
other mappings come first and give way to the others, and keys that are not texts are written as texts.
-/

namespace FixtureCheck.Yaml

/-- What a node is said to be. -/
inductive Tag where
  | null
  | bool
  | int
  | float
  | str
  | seq
  | map
  | merge
  | date
  | mark
  /-- A sequence of entries; may a key come twice? -/
  | entries (mayRepeat : Bool)
  | set
  | binary
  | unknown (text : String)
  deriving DecidableEq, Repr, Inhabited

/-- What the standard tags begin with. -/
def Tag.standardStart : String := "tag:yaml.org,2002:"

/-- The tag of a standard name. -/
def Tag.standard (name : String) : Tag :=
  match name with
  | "null" => .null
  | "bool" => .bool
  | "int" => .int
  | "float" => .float
  | "str" => .str
  | "seq" => .seq
  | "map" => .map
  | "merge" => .merge
  | "timestamp" => .date
  | "value" => .mark
  | "omap" => .entries false
  | "pairs" => .entries true
  | "set" => .set
  | "binary" => .binary
  | name => .unknown (standardStart ++ name)

/-- The tag of a text. -/
def Tag.ofText (text : String) : Tag :=
  if text.startsWith standardStart then .standard (text.drop standardStart.length).toString else .unknown text

/-- The tag of a scalar without quotes. -/
def Tag.ofPlain (text : String) : Tag :=
  match kindOf text with
  | .truth => .bool
  | .float => .float
  | .int => .int
  | .merge => .merge
  | .nothing => .null
  | .date => .date
  | .mark => .mark
  | .text => .str

/-- A node and where it begins. -/
inductive Node where
  | scalar (tag : Tag) (text : String) (mark : Mark)
  | sequence (tag : Tag) (items : List Node) (mark : Mark)
  | mapping (tag : Tag) (entries : List (Node × Node)) (mark : Mark)
  deriving Inhabited

namespace Node

/-- The tag of a node. -/
def tag : Node → Tag
  | scalar tag _ _ | sequence tag _ _ | mapping tag _ _ => tag

/-- Where a node begins. -/
def mark : Node → Mark
  | scalar _ _ mark | sequence _ _ mark | mapping _ _ mark => mark

/-- The kind of a node in messages. -/
def kindName : Node → String
  | scalar .. => "scalar"
  | sequence .. => "sequence"
  | mapping .. => "mapping"

/-- Is the node a key that merges other mappings? -/
def isMerge (n : Node) : Bool := n.tag == .merge

/-- A key of a mapping; the mark for a value counts as a text there. -/
def asKey : Node → Node
  | scalar .mark text mark => scalar .str text mark
  | n => n

/-- The failure at a node inside a collection. -/
def failed {α : Type} (kind : String) (start : Mark) (text : String) (mark : Mark) : Except YamlError α :=
  .error (.problem text (some mark) (some ⟨s!"while constructing a {kind}", some start⟩))

/-- The failure that a node of one kind was expected and another one found. -/
def wrongKind {α : Type} (wanted : String) (n : Node) : Except YamlError α :=
  .error (.problem s!"expected a {wanted} node, but found {n.kindName}" (some n.mark) none)

/-- The failure that nothing is known about a tag. -/
def unknownTag {α : Type} (text : String) (mark : Mark) : Except YamlError α :=
  .error (.problem ("could not determine a constructor for the tag " ++ Text.quoted text) (some mark) none)

/-- The failure of a tag that no value has, if it is one. -/
def checkTag (n : Node) : Except YamlError Unit :=
  match n.tag with
  | .unknown text => unknownTag text n.mark
  | .merge => unknownTag (Tag.standardStart ++ "merge") n.mark
  | .mark => unknownTag (Tag.standardStart ++ "value") n.mark
  | _ => .ok ()

/-! ## Merged mappings -/

mutual

/-- The entries of the mappings that a node merges, through at most `n` mappings within each other. -/
def mergedEntries (n : Nat) (start : Mark) (node : Node) : Except YamlError (List (Node × Node)) :=
  match n, node with
  | n + 1, mapping _ entries mark => flatEntries n mark entries
  | n + 1, sequence _ items _ => do
    let all ← items.mapM fun item =>
      match item with
      | mapping _ entries mark => flatEntries n mark entries
      | other =>
        failed "mapping" start s!"expected a mapping for merging, but found {other.kindName}" other.mark
    return all.reverse.flatten
  | _, other =>
    failed "mapping" start s!"expected a mapping or list of mappings for merging, but found {other.kindName}" other.mark
termination_by (n, 0)

/-- The entries of a mapping, those of merged mappings first. -/
def flatEntries (n : Nat) (start : Mark) (entries : List (Node × Node)) : Except YamlError (List (Node × Node)) := do
  let merged ← (entries.filter (·.1.isMerge)).mapM fun (_, node) => mergedEntries n start node
  return merged.flatten ++ (entries.filter (!·.1.isMerge)).map fun (key, node) => (key.asKey, node)
termination_by (n, 1)

end

/-! ## Values -/

/-- The text of a key; none for a collection. -/
def keyText? : Json → Option String
  | .str s => some s
  | .arr _ | .obj _ => none
  | value => some value.compact

/-- The value of a scalar. -/
def scalarValue (tag : Tag) (text : String) (n : Node) : Except YamlError Json :=
  match tag with
  | .null => .ok .null
  | .bool => valueOf .truth text
  | .int => valueOf .int text
  | .float => valueOf .float text
  | .seq | .entries _ => wrongKind "sequence" n
  | .map | .set => wrongKind "mapping" n
  | _ => .ok (.str text)

/-- The value of a node of at most `n` collections within each other. -/
def value : Nat → Node → Except YamlError Json
  | 0, node => unknownTag "" node.mark
  | n + 1, node => do
    checkTag node
    match node with
    | scalar tag text _ => scalarValue tag text node
    | sequence tag items mark =>
      match tag with
      | .seq => return .arr (← items.mapM (value n))
      | .entries _ => return .arr (← items.mapM fun item =>
        match item with
        | mapping _ [(key, inner)] _ => do return .arr [← value n key, ← value n inner]
        | mapping _ entries place =>
          failed "sequence of entries" mark s!"expected a single mapping item, but found {entries.length} items" place
        | other =>
          failed "sequence of entries" mark s!"expected a mapping of length 1, but found {other.kindName}" other.mark)
      | .map | .set => wrongKind "mapping" node
      | _ => wrongKind "scalar" node
    | mapping tag entries mark =>
      match tag with
      | .map | .set =>
        let flat ← flatEntries n mark entries
        let entries ← flat.mapM fun (key, inner) => do
          match keyText? (← value n key) with
          | some text => return (text, ← value n inner)
          | none => failed "mapping" mark "found unhashable key" key.mark
        return Json.ofEntries entries
      | .seq | .entries _ => wrongKind "sequence" node
      | _ => wrongKind "scalar" node

end Node

end FixtureCheck.Yaml
