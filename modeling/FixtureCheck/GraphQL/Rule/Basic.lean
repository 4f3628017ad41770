import FixtureCheck.GraphQL.Visit

/-!
# Rules for documents

A rule looks at the walk through a document and reports what it dislikes, each report at the visit that shows it.
`findings` puts the reports of several rules in the order of the walk, and in the order of the rules at one visit.

The small rules are made of a few patterns: `eachVisit` looks at one visit at a time, `repeats` notes keys that were met
before, and `outside` hides the parts below some visits.
-/

namespace FixtureCheck.GraphQL

/-- What a rule says at a visit; `time` counts the visits before it. -/
structure Report where
  time : Nat
  message : String
  deriving Repr, DecidableEq

/-- A rule for documents under a schema. -/
abbrev Rule := (schema : Schema) → (document : Document) → (walk : List (Visit × Nat)) → List Report

/-- The reports of a rule that looks at one visit at a time. -/
def eachVisit (messages : Visit → List String) (walk : List (Visit × Nat)) : List Report :=
  walk.flatMap fun (visit, time) => (messages visit).map (⟨time, ·⟩)

/-- The reports of a rule that looks at the parts on the way in. -/
def eachEntry (messages : Visit → List String) : List (Visit × Nat) → List Report :=
  eachVisit fun visit => if visit.entering then messages visit else []

/-- The reports of a rule that looks at the parts on the way out. -/
def eachExit (messages : Visit → List String) : List (Visit × Nat) → List Report :=
  eachVisit fun visit => if visit.entering then [] else messages visit

/-- The reports on parts whose key an earlier part has, too. -/
def repeats (key : Visit → Option String) (message : String → String) (walk : List (Visit × Nat)) : List Report :=
  go [] walk
where
  /-- `seen` holds the keys met before. -/
  go (seen : List String) : List (Visit × Nat) → List Report
    | [] => []
    | (visit, time) :: rest =>
      match if visit.entering then key visit else none with
      | none => go seen rest
      | some k => if seen.contains k then ⟨time, message k⟩ :: go seen rest else go (k :: seen) rest

/-- The walk without what lies below the parts that are blocked. -/
def outside (blocked : Visit → Bool) (walk : List (Visit × Nat)) : List (Visit × Nat) :=
  go none walk
where
  /-- `below` is the depth of the blocked part the walk is in. -/
  go (below : Option Nat) : List (Visit × Nat) → List (Visit × Nat)
    | [] => []
    | (visit, time) :: rest =>
      match below with
      | some depth => if visit.depth == depth then go none rest else go below rest
      | none => (visit, time) :: go (if visit.entering && blocked visit then some visit.depth else none) rest

/-- The names that occur more than once, in the order of their first occurrences. -/
def repeatedNames (names : List String) : List String :=
  names.eraseDups.filter fun name => names.count name > 1

/-- The reports of rules in the order of the walk. -/
def findings (rules : List Rule) (schema : Schema) (document : Document) : List Report :=
  let walk := (visits schema document).zipIdx
  (rules.flatMap fun rule => rule schema document walk).mergeSort fun a b => a.time ≤ b.time

end FixtureCheck.GraphQL
