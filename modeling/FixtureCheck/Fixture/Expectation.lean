import FixtureCheck.Fixture.Frame

/-!
# Expected keys

An `Expectation` holds the response keys that one selection of a field expects of the objects below it: those selected
under no type condition, and for each narrowed set of types those selected for these types. Selections further down have
expectations of their own, which makes a tree. An object that several selections reach expects the keys of all of them;
`extraFields` lists the keys of objects that nothing expects.
-/

namespace FixtureCheck.Fixture

/-- The keys selected for a set of types; `condition` is the type condition that first led to the set. -/
structure TypedFields where
  condition : String
  possible : NameSet
  fields : NameSet
  deriving DecidableEq, Inhabited

/-- What one selection of a field expects of the objects below it. -/
structure Expectation where
  /-- The response key of the field; none at the root. -/
  key : Option String := none
  /-- The keys selected under no type condition. -/
  common : NameSet := .empty
  /-- The keys selected under type conditions, by set of types. -/
  byType : List TypedFields := []
  /-- The key under which the objects name their types. -/
  typenameKey : Option String := none
  /-- The expectations of the fields with selections of their own. -/
  children : List Expectation := []
  /-- The objects, in the order in which they were reached. -/
  objects : List Located := []
  deriving Inhabited

namespace Expectation

/-- Adds a key to the entry of a set of types, or a new entry at the end. -/
def recordTyped (key condition : String) (possible : NameSet) : List TypedFields → List TypedFields
  | [] => [⟨condition, possible, .singleton key⟩]
  | entry :: rest =>
    if entry.possible = possible then { entry with fields := entry.fields.insert key } :: rest
    else entry :: recordTyped key condition possible rest

/-- Takes note of a selected key. -/
def record (e : Expectation) (key : String) (condition : Option String) (possible : NameSet) : Expectation :=
  match condition with
  | none => { e with common := e.common.insert key }
  | some type => { e with byType := recordTyped key type possible e.byType }

/-- Are values at the same place? -/
def samePlace (a b : Located) : Bool := a.path == b.path

/-- Takes up an object, unless it is there; other values are ignored. -/
def addObject (e : Expectation) (value : Located) : Expectation :=
  match value.value with
  | .obj _ => if e.objects.any (samePlace value) then e else { e with objects := e.objects ++ [value] }
  | _ => e

/-- Takes up objects. -/
def addObjects (e : Expectation) (values : List Located) : Expectation := values.foldl addObject e

/-- Adds the expectation of a field with selections of its own. -/
def addChild (e : Expectation) (child : Expectation) : Expectation := { e with children := e.children ++ [child] }

/-- Names the key for type names, unless it is known. -/
def withTypenameKey (e : Expectation) (key : Option String) : Expectation :=
  { e with typenameKey := e.typenameKey.or key }

mutual

/-- The expectation and those below it, each before its children. -/
def walk : Expectation → List Expectation
  | e@⟨_, _, _, _, children, _⟩ => e :: walkAll children

/-- The expectations in a row and those below them. -/
def walkAll : List Expectation → List Expectation
  | [] => []
  | e :: rest => e.walk ++ walkAll rest

end

/-- The keys expected of an object; an object that names its type has those for its type only. -/
def applicable (e : Expectation) (object : Located) : NameSet :=
  let name := typename? object.value e.typenameKey
  let applies (entry : TypedFields) : Bool := name.all fun n => decide (n ∈ entry.possible)
  (e.byType.filter applies).foldl (fun keys entry => keys.union entry.fields) e.common

/-- Is an object among those of the expectation? -/
def holds (e : Expectation) (object : Located) : Bool := e.objects.any (samePlace object)

end Expectation

/-- The objects of a tree, each where it is first met. -/
def distinctObjects (root : Expectation) : List Located :=
  (root.walk.flatMap (·.objects)).foldl
    (fun done object => if done.any (Expectation.samePlace object) then done else done ++ [object]) []

/-- Does one of the expectations expect a key of an object? -/
def isExpected (all : List Expectation) (object : Located) (key : String) : Bool :=
  all.any fun e => e.holds object && decide (key ∈ e.applicable object)

/-- The keys of objects that nothing in a tree expects. -/
def extraFields (root : Expectation) : List String :=
  (distinctObjects root).flatMap fun object => object.keys.filter (!isExpected root.walk object ·)

/-! ## Edits of a tree -/

namespace Expectation

/-- A place in a tree of expectations: the indexes of the children that lead to it. -/
abbrev Place := List Nat

/-- The expectation at a place. -/
def at? : Expectation → Place → Option Expectation
  | e, [] => some e
  | e, i :: rest => e.children[i]?.bind fun child => at? child rest
termination_by _ place => place.length

/-- Changes the expectation at a place. -/
def modifyAt (change : Expectation → Expectation) : Place → Expectation → Expectation
  | [], e => change e
  | i :: rest, e => { e with children := e.children.modify i (modifyAt change rest) }

/-- The places of a tree below a place, each before its children. -/
def placesBelow (root : Expectation) (place : Place) : List Place :=
  match root.at? place with
  | some e => place :: go place 0 e.children
  | none => []
where
  /-- The places of children in a row, the first of which has the index `i`. -/
  go (place : Place) (i : Nat) : List Expectation → List Place
    | [] => []
    | ⟨_, _, _, _, children, _⟩ :: rest =>
      (place ++ [i]) :: (go (place ++ [i]) 0 children ++ go place (i + 1) rest)

/-- A change of one expectation. -/
inductive Change where
  | record (key : String) (condition : Option String) (possible : NameSet)
  | child (key : String)
  | add (objects : List Located)
  | typenameKey (key : Option String)

/-- Makes a change. -/
def apply : Change → Expectation → Expectation
  | .record key condition possible, e => e.record key condition possible
  | .child key, e => e.addChild { key := some key }
  | .add objects, e => e.addObjects objects
  | .typenameKey key, e => { e with typenameKey := key }

/-- A change and where it is made. -/
structure Edit where
  place : Place
  change : Change

/-- Makes an edit. -/
def edit (root : Expectation) (e : Edit) : Expectation := modifyAt (apply e.change) e.place root

/-- Makes edits one after the other. -/
def edits (root : Expectation) (log : List Edit) : Expectation := log.foldl edit root

end Expectation

end FixtureCheck.Fixture
