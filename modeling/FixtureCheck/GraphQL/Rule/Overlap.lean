import FixtureCheck.GraphQL.Rule.Basic
import FixtureCheck.GraphQL.Spread
import FixtureCheck.GraphQL.Syntax.Printer
import FixtureCheck.Text.Suggestion

/-!
# The rule about fields that share a response key

Fields with one response key that can be selected on the same object have the same name and arguments, and in any case
types of the same shape; the same holds of their sub-selections together. `FieldTable` holds the fields of a selection
set by response key, and the fragments it spreads, which are compared one by one.

The comparison remembers which selection sets it has compared with which fragments, and which fragments with each other,
so that each such pair is reported once. A selection set is known by its place: the index of its definition, and those
of the selections that lead to it, the innermost first.
-/

namespace FixtureCheck.GraphQL

/-- The place of a selection set. -/
abbrev SetPlace := List Nat

mutual

/-- The places of the selection sets inside selections in a row, the first of which has the index `i`. -/
def innerSetPlaces (place : SetPlace) (i : Nat) : List Selection → List SetPlace
  | [] => []
  | selection :: rest => setPlacesBelow (i :: place) selection ++ innerSetPlaces place (i + 1) rest

/-- The places of the selection sets inside the selection at a place. -/
def setPlacesBelow (place : SetPlace) : Selection → List SetPlace
  | .spread .. => []
  | .field _ selections => if selections.isEmpty then [] else place :: innerSetPlaces place 0 selections
  | .inline _ _ selections => place :: innerSetPlaces place 0 selections

end

/-- The places of a selection set and of those inside it, in reading order. -/
def setPlaces (place : SetPlace) (selections : List Selection) : List SetPlace :=
  place :: innerSetPlaces place 0 selections

/-- The places of all selection sets of a document. -/
def documentSetPlaces (document : Document) : List SetPlace :=
  document.zipIdx.flatMap fun
    | (.operation o, i) => setPlaces [i] o.selections
    | (.fragment f, i) => setPlaces [i] f.selections
    | _ => []

/-! ## Tables of fields -/

/-- A field as it is compared: the type it is selected on, its definition there, and the place of its selection set. -/
structure FieldEntry where
  parent : Option String
  field : Field
  definition : Option OutputField
  selections : List Selection
  place : SetPlace

/-- The fields of a selection set by response key, in the order of their first occurrences, and its spreads. -/
structure FieldTable where
  place : SetPlace
  groups : List (String × List FieldEntry) := []
  fragments : List String := []

/-- Adds a field at the end of its group. -/
def addEntry (entry : FieldEntry) : List (String × List FieldEntry) → List (String × List FieldEntry)
  | [] => [(entry.field.key, [entry])]
  | (key, entries) :: rest =>
    if key == entry.field.key then (key, entries ++ [entry]) :: rest else (key, entries) :: addEntry entry rest

mutual

/-- Takes up a selection at a place. -/
def FieldTable.addSelection (schema : Schema) (parent : Option String) (place : SetPlace) (table : FieldTable) :
    Selection → FieldTable
  | .field f selections =>
    let definition := (parent.bind schema.details?).bind fun details => details.fields.find? (·.name == f.name)
    { table with groups := addEntry ⟨parent, f, definition, selections, place⟩ table.groups }
  | .spread name _ =>
    if table.fragments.contains name then table else { table with fragments := table.fragments ++ [name] }
  | .inline condition _ selections =>
    let parent := match condition with
      | some name => if (schema.type? name).isSome then some name else none
      | none => parent
    table.addSelections schema parent place 0 selections

/-- Takes up the selections of a set, the first of which has the index `i`. -/
def FieldTable.addSelections (schema : Schema) (parent : Option String) (place : SetPlace) (table : FieldTable)
    (i : Nat) : List Selection → FieldTable
  | [] => table
  | selection :: rest =>
    (table.addSelection schema parent (i :: place) selection).addSelections schema parent place (i + 1) rest

end

/-- The table of a selection set. -/
def fieldTable (schema : Schema) (parent : Option String) (place : SetPlace) (selections : List Selection) :
    FieldTable :=
  ({ place } : FieldTable).addSelections schema parent place 0 selections

/-- The table of a fragment. -/
def fragmentTable? (schema : Schema) (document : Document) (name : String) : Option FieldTable :=
  document.zipIdx.reverse.findSome? fun
    | (.fragment f, i) =>
      if f.name == name then
        some (fieldTable schema ((schema.type? f.condition).map (·.name)) [i] f.selections)
      else none
    | _ => none

/-! ## Conflicts -/

/-- Why fields with one response key conflict. -/
inductive Conflict where
  | names (key first second : String)
  | arguments (key : String)
  | types (key : String) (first second : TypeRef)
  | subfields (key : String) (conflicts : List Conflict)

namespace Conflict

/-- The response key of the fields. -/
def key : Conflict → String
  | names key .. | arguments key | types key .. | subfields key _ => key

mutual

/-- The reason of a conflict in words. -/
def reason : Conflict → String
  | names _ first second => s!"'{first}' and '{second}' are different fields"
  | arguments _ => "they have differing arguments"
  | types _ first second => s!"they return conflicting types '{first.text}' and '{second.text}'"
  | subfields _ conflicts => " and ".intercalate (reasons conflicts)

/-- The reasons of conflicts between sub-selections in words. -/
def reasons : List Conflict → List String
  | [] => []
  | c :: rest => s!"subfields '{c.key}' conflict because {c.reason}" :: reasons rest

end

/-- The message about a conflict. -/
def message (c : Conflict) : String :=
  s!"Fields '{c.key}' conflict because {c.reason}. " ++
    "Use different aliases on the fields to fetch both if this was intentional."

end Conflict

mutual

/-- A literal with the fields of all object literals in natural order. -/
def sortFields : Value → Value
  | .list items => .list (sortFieldsItems items)
  | .object fields =>
    .object ((sortFieldsEntries fields).mergeSort fun a b => Text.naturalCompare a.1 b.1 != .gt)
  | value => value

/-- `sortFields` on every item. -/
def sortFieldsItems : List Value → List Value
  | [] => []
  | v :: rest => sortFields v :: sortFieldsItems rest

/-- `sortFields` on every entry. -/
def sortFieldsEntries : List (String × Value) → List (String × Value)
  | [] => []
  | (key, v) :: rest => (key, sortFields v) :: sortFieldsEntries rest

end

/-- Do fields have the same arguments, in any order? -/
def sameArguments (a b : List Argument) : Bool :=
  let values (arguments : List Argument) (name : String) : Option String :=
    (arguments.filter (·.name == name)).getLast?.map fun x => printValue (sortFields x.value)
  a.length == b.length && a.all fun x => values b x.name == some (printValue (sortFields x.value))

/-- Do types differ in shape? Types with parts have the same shape. -/
def typesConflict (schema : Schema) : TypeRef → TypeRef → Bool
  | .list a, .list b => typesConflict schema a b
  | .list _, _ | _, .list _ => true
  | .nonNull a, .nonNull b => typesConflict schema a b
  | .nonNull _, _ | _, .nonNull _ => true
  | .named a, .named b => (schema.isLeaf a || schema.isLeaf b) && a != b

/-! ## Comparison -/

/-- The pairs compared so far, each with the flag whether its fields were known not to meet. -/
structure Compared where
  setsWithFragments : List (SetPlace × String × Bool) := []
  fragments : List (String × String × Bool) := []

/-- A comparison with a memory. -/
abbrev Comparing := StateM Compared

/-- Was a pair compared? A comparison of fields that can meet covers the one of fields that cannot. -/
def covers {α : Type} [BEq α] (pairs : List (α × String × Bool)) (a : α) (b : String) (apart : Bool) : Bool :=
  match pairs.find? fun (x, y, _) => x == a && y == b with
  | some (_, _, before) => apart || !before
  | none => false

/-- Takes note of a set and a fragment; was the pair new? -/
def newSetWithFragment (place : SetPlace) (name : String) (apart : Bool) : Comparing Bool := fun memory =>
  if covers memory.setsWithFragments place name apart then (false, memory)
  else (true, { memory with setsWithFragments := (place, name, apart) :: memory.setsWithFragments })

/-- Takes note of two fragments, in either order; was the pair new? -/
def newFragments (a b : String) (apart : Bool) : Comparing Bool := fun memory =>
  let (a, b) := if a < b then (a, b) else (b, a)
  if covers memory.fragments a b apart then (false, memory)
  else (true, { memory with fragments := (a, b, apart) :: memory.fragments })

/-- The results of steps in a row. -/
def collect {α : Type} (items : List α) (step : α → Comparing (List Conflict)) : Comparing (List Conflict) :=
  items.foldlM (fun done item => return done ++ (← step item)) []

/-- The questions that a comparison consists of; `apart` tells that the fields above cannot be selected on one
object. -/
inductive Comparison where
  | fields (apart : Bool) (key : String) (a b : FieldEntry)
  | tables (apart : Bool) (a b : FieldTable)
  | tableWithFragment (apart : Bool) (table : FieldTable) (fragment : String)
  | fragments (apart : Bool) (a b : String)

/-- The conflicts that a comparison finds, at most `n` comparisons within each other. -/
def compare (schema : Schema) (document : Document) : Nat → Comparison → Comparing (List Conflict)
  | 0, _ => return []
  | n + 1, .fields apart key a b => do
    let apart := apart ||
      match a.parent, b.parent with
      | some p, some q => p != q && schema.isObject p && schema.isObject q
      | _, _ => false
    if !apart && a.field.name != b.field.name then return [.names key a.field.name b.field.name]
    if !apart && !sameArguments a.field.arguments b.field.arguments then return [.arguments key]
    if let some p := a.definition then
      if let some q := b.definition then
        if typesConflict schema p.type q.type then return [.types key p.type q.type]
    if a.selections.isEmpty || b.selections.isEmpty then return []
    let table (e : FieldEntry) : FieldTable :=
      fieldTable schema (e.definition.map (·.type.base)) e.place e.selections
    let ta := table a
    let tb := table b
    let direct ← compare schema document n (.tables apart ta tb)
    let left ← collect tb.fragments fun name => compare schema document n (.tableWithFragment apart ta name)
    let right ← collect ta.fragments fun name => compare schema document n (.tableWithFragment apart tb name)
    let both ← collect ta.fragments fun x => collect tb.fragments fun y =>
      compare schema document n (.fragments apart x y)
    match direct ++ left ++ right ++ both with
    | [] => return []
    | conflicts => return [.subfields key conflicts]
  | n + 1, .tables apart a b =>
    collect a.groups fun (key, entries) =>
      match b.groups.lookup key with
      | none => return []
      | some others =>
        collect entries fun x => collect others fun y => compare schema document n (.fields apart key x y)
  | n + 1, .tableWithFragment apart table name => do
    if !(← newSetWithFragment table.place name apart) then return []
    match fragmentTable? schema document name with
    | none => return []
    | some other =>
      if other.place == table.place then return []
      let direct ← compare schema document n (.tables apart table other)
      let further ← collect other.fragments fun next =>
        compare schema document n (.tableWithFragment apart table next)
      return direct ++ further
  | n + 1, .fragments apart a b => do
    if a == b then return []
    if !(← newFragments a b apart) then return []
    match fragmentTable? schema document a, fragmentTable? schema document b with
    | some ta, some tb =>
      let direct ← compare schema document n (.tables apart ta tb)
      let left ← collect tb.fragments fun next => compare schema document n (.fragments apart a next)
      let right ← collect ta.fragments fun next => compare schema document n (.fragments apart next b)
      return direct ++ left ++ right
    | _, _ => return []

/-- The pairs of different items, in order. -/
def pairs {α : Type} : List α → List (α × α)
  | [] => []
  | a :: rest => rest.map (a, ·) ++ pairs rest

/-- The conflicts in a selection set. -/
def setConflicts (schema : Schema) (document : Document) (n : Nat) (table : FieldTable) :
    Comparing (List Conflict) := do
  let within ← collect table.groups fun (key, entries) => collect (pairs entries) fun (a, b) =>
    compare schema document n (.fields false key a b)
  let withFragments ← collect (table.fragments.zipIdx) fun (name, i) => do
    let direct ← compare schema document n (.tableWithFragment false table name)
    let others ← collect (table.fragments.drop (i + 1)) fun other =>
      compare schema document n (.fragments false name other)
    return direct ++ others
  return within ++ withFragments

/-- Fields that share a response key can be merged. -/
def overlappingFieldsCanBeMerged : Rule := fun schema document walk =>
  let sets := walk.filterMap fun (visit, time) =>
    match visit.entering, visit.node with
    | true, .selectionSet selections => some (time, visit.scope.parent, selections)
    | _, _ => none
  let bound := (walk.length + 2) * (walk.length + 2)
  let report : ((Nat × Option String × List Selection) × SetPlace) → Comparing (List Report) :=
    fun ((time, parent, selections), place) => do
      let conflicts ← setConflicts schema document bound (fieldTable schema parent place selections)
      return conflicts.map fun c => ⟨time, c.message⟩
  ((((sets.zip (documentSetPlaces document)).mapM report).run {}).1).flatten

end FixtureCheck.GraphQL
