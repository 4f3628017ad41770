import FixtureCheck.GraphQL.Schema.Standard
import FixtureCheck.Proofs.Walk.Erasure
import FixtureCheck.Proofs.Walk.Scope
import Mathlib

/-!
# The tree of expectations and the query

`Mirrors` says which tree of expectations belongs to a selection set: the keys and the sets of types are those of the
fields met in the set, the children those of the fields with selections of their own. A walk that is not cut off builds
that tree (`mirrors_walkSet`). With `outcome_walkOperation_withoutObjects`, two fixtures that are checked against one
operation are both cut off for the same reason, or have trees that differ in the objects alone
(`check_depends_on_query`).

Checks are evaluated by `cbv`, here and in what builds on this module. It needs equations of functions such as
`Option.isNone`, and takes them from where Mathlib has them, which is far apart; so Mathlib is imported whole.
-/

namespace FixtureCheck.Fixture

open GraphQL (Schema Document Selection Operation)
open Expectation

/-- **The tree of expectations that belongs to the selection set of a field** of type `declared`. -/
inductive Mirrors (schema : Schema) : String → List Selection → Expectation → Prop where
  | intro {declared : String} {selections : List Selection} {e : Expectation}
      (common : ∀ k, k ∈ e.common ↔ ∃ m ∈ metIn [] selections, m.conditions = [] ∧ m.field.key = k)
      (sets : ∀ P, P ∈ e.byType.map (·.possible) ↔
        ∃ m ∈ metIn [] selections, m.conditions ≠ [] ∧ m.possible schema declared = P)
      (distinct : (e.byType.map (·.possible)).Nodup)
      (fields : ∀ entry ∈ e.byType, ∀ k, k ∈ entry.fields ↔
        ∃ m ∈ metIn [] selections, m.conditions ≠ [] ∧ m.possible schema declared = entry.possible ∧ m.field.key = k)
      (keys : e.children.map (·.key) = (withSelections (metIn [] selections)).map fun m => some m.field.key)
      (known : ∀ m ∈ metIn [] selections, (schema.fieldOf? (some (m.type declared)) m.field.name).isSome)
      (children : ∀ (i : Nat) (m : Met) (child : Expectation) (definition : GraphQL.OutputField),
        (withSelections (metIn [] selections))[i]? = some m → e.children[i]? = some child →
        schema.fieldOf? (some (m.type declared)) m.field.name = some definition →
        Mirrors schema definition.type.base m.selections child) :
      Mirrors schema declared selections e

section

variable {schema : Schema} {selections : List Selection} {frame : Frame} {e e' : Expectation} {declared : String}
  {objects : List Located}

/-- No step of a walk that is not cut off is a stop. -/
theorem not_stop_mem {steps : List Step} (h : (run schema steps e).outcome = .ok e') (cause : Abort) :
    Step.stop cause ∉ steps := by
  intro hm
  obtain ⟨change, hc⟩ := change_of_run h _ hm
  cases hc

/-- The fields met in a set are those that the walk looks at, unless it is cut off. -/
theorem mem_metIn_iff {conditions : List String} {m : Met}
    (h : ∀ cause, Step.stop cause ∉ setSteps schema conditions selections frame) :
    m ∈ metIn conditions selections ↔
      ∃ g, Step.field m.conditions g m.field m.selections ∈ setSteps schema conditions selections frame := by
  rw [← filterMap_met_setSteps h, List.mem_filterMap]
  constructor
  · rintro ⟨step, hm, hs⟩
    cases step with
    | field conditions g f inner =>
      cases hs
      exact ⟨g, hm⟩
    | stop cause => cases hs
    | set conditions g inner => cases hs
  · rintro ⟨g, hm⟩
    exact ⟨_, hm, rfl⟩

/-- A test of steps that only fields pass is passed by a step of a walk that is not cut off if it is by a field. -/
theorem exists_step_iff {Q : Step → Prop} (h : ∀ cause, Step.stop cause ∉ setSteps schema [] selections frame)
    (hstop : ∀ cause, ¬ Q (.stop cause)) (hset : ∀ conditions g inner, ¬ Q (.set conditions g inner)) :
    (∃ step ∈ setSteps schema [] selections frame, Q step) ↔
      ∃ m ∈ metIn [] selections, ∃ g, Step.field m.conditions g m.field m.selections ∈
        setSteps schema [] selections frame ∧ Q (.field m.conditions g m.field m.selections) := by
  constructor
  · rintro ⟨step, hm, hq⟩
    cases step with
    | stop cause => exact absurd hq (hstop cause)
    | set conditions g inner => exact absurd hq (hset conditions g inner)
    | field conditions g f inner => exact ⟨⟨conditions, f, inner⟩, (mem_metIn_iff h).2 ⟨g, hm⟩, g, hm, hq⟩
  · rintro ⟨m, -, g, hm, hq⟩
    exact ⟨_, hm, hq⟩

theorem exists_isCommon_iff {k : String} (hf : frame.IsAt schema declared objects [])
    (h : ∀ cause, Step.stop cause ∉ setSteps schema [] selections frame) :
    (∃ step ∈ setSteps schema [] selections frame, step.IsCommon k) ↔
      ∃ m ∈ metIn [] selections, m.conditions = [] ∧ m.field.key = k := by
  rw [exists_step_iff h (fun _ hq => hq) (fun _ _ _ hq => hq)]
  refine exists_congr fun m => and_congr_right fun hm => ?_
  constructor
  · rintro ⟨g, hg, hc, hk⟩
    have hat := isAt_of_field_mem hf hg
    rw [hat.condition] at hc
    exact ⟨by simpa using hc, hk⟩
  · rintro ⟨hc, hk⟩
    obtain ⟨g, hg⟩ := (mem_metIn_iff h).1 hm
    have hat := isAt_of_field_mem hf hg
    exact ⟨g, hg, by rw [hat.condition, hc]; rfl, hk⟩

theorem exists_isTyped_iff {P : NameSet} {k : String} (hf : frame.IsAt schema declared objects [])
    (h : ∀ cause, Step.stop cause ∉ setSteps schema [] selections frame) :
    (∃ step ∈ setSteps schema [] selections frame, step.IsTyped P k) ↔
      ∃ m ∈ metIn [] selections, m.conditions ≠ [] ∧ m.possible schema declared = P ∧ m.field.key = k := by
  rw [exists_step_iff h (fun _ hq => hq) (fun _ _ _ hq => hq)]
  refine exists_congr fun m => and_congr_right fun hm => ?_
  constructor
  · rintro ⟨g, hg, hc, hp, hk⟩
    have hat := isAt_of_field_mem hf hg
    rw [hat.condition] at hc
    exact ⟨by simpa using hc, by rw [← hp, hat.possible]; rfl, hk⟩
  · rintro ⟨hc, hp, hk⟩
    obtain ⟨g, hg⟩ := (mem_metIn_iff h).1 hm
    have hat := isAt_of_field_mem hf hg
    exact ⟨g, hg, by rw [hat.condition]; simpa using hc, by rw [hat.possible, ← hp]; rfl, hk⟩

/-- No set of types has two entries, so an entry holds what the entries of its set expect. -/
theorem expects_iff_of_nodup {entries : List TypedFields} (h : (entries.map (·.possible)).Nodup) {entry : TypedFields}
    (hm : entry ∈ entries) {k : String} : Expects entries entry.possible k ↔ k ∈ entry.fields := by
  constructor
  · rintro ⟨other, ho, hp, hk⟩
    have : other = entry := List.inj_on_of_nodup_map h ho hm hp
    exact this ▸ hk
  · exact fun hk => ⟨entry, hm, rfl, hk⟩

end

/-- The scope of a field has the key of the field. -/
theorem key_walkBelow {schema : Schema} {frame : Frame} {f : GraphQL.Field} {definition : GraphQL.OutputField}
    {selections : List Selection} {child : Expectation}
    (h : (walkBelow schema frame f definition selections).outcome = .ok child) : some f.key = child.key := by
  rw [walkBelow, walkSet_eq_run schema []] at h
  rw [key_run h, key_holding]

theorem map_eq_map_of_forall₂ {α β γ : Type} {f : α → γ} {g : β → γ} : ∀ {as : List α} {bs : List β},
    List.Forall₂ (fun a b => f a = g b) as bs → as.map f = bs.map g
  | [], [], .nil => rfl
  | _ :: _, _ :: _, .cons h hs => by rw [List.map_cons, List.map_cons, h, map_eq_map_of_forall₂ hs]

theorem rel_of_forall₂ {α β : Type} {R : α → β → Prop} {as : List α} {bs : List β} (h : List.Forall₂ R as bs) {i : Nat}
    {a : α} {b : β} (ha : as[i]? = some a) (hb : bs[i]? = some b) : R a b := by
  obtain ⟨hia, rfl⟩ := List.getElem?_eq_some_iff.1 ha
  obtain ⟨hib, rfl⟩ := List.getElem?_eq_some_iff.1 hb
  exact h.get hia hib

/-- **A walk that is not cut off builds the tree that belongs to the selection set.** -/
theorem mirrors_walkSet {schema : Schema} {selections : List Selection} {declared : String} {objects : List Located}
    {frame : Frame} {e e' : Expectation} (hf : frame.IsAt schema declared objects []) (he : e.IsFresh)
    (h : (walkSet schema selections frame e).outcome = .ok e') : Mirrors schema declared selections e' := by
  rw [walkSet_eq_run schema []] at h
  have hstop := not_stop_mem h
  have hfresh : ∀ P k, ¬ Expects e.byType P k := by
    intro P k hk
    simp [Expects, he.byType] at hk
  have hnodup : (e'.byType.map (·.possible)).Nodup := nodup_possible_run h (by simp [he.byType])
  obtain ⟨children, hc, hchildren⟩ := children_run h
  rw [he.children, List.nil_append] at hc
  rw [filterMap_met_setSteps hstop] at hchildren
  have hwalk : ∀ m child, IsChild schema (setSteps schema [] selections frame) m child →
      ∃ g definition, g.IsAt schema declared objects m.conditions ∧
        schema.fieldOf? (some (m.type declared)) m.field.name = some definition ∧
        (walkBelow schema g m.field definition m.selections).outcome = .ok child := by
    rintro m child ⟨g, definition, hm, hd, hw⟩
    have hat := isAt_of_field_mem hf hm
    exact ⟨g, definition, hat, by rw [← hd, hat.type]; rfl, hw⟩
  refine .intro (fun k => ?_) (fun P => ?_) hnodup (fun entry hm k => ?_) ?_ (fun m hm => ?_) ?_
  · rw [mem_common_run h, exists_isCommon_iff hf hstop, he.common]
    simp
  · rw [mem_possible_run h, he.byType]
    simp only [List.map_nil, List.not_mem_nil, false_or]
    constructor
    · rintro ⟨step, hs, k, hk⟩
      obtain ⟨m, hm, hc, hp, -⟩ := (exists_isTyped_iff hf hstop).1 ⟨step, hs, hk⟩
      exact ⟨m, hm, hc, hp⟩
    · rintro ⟨m, hm, hc, hp⟩
      obtain ⟨step, hs, hk⟩ := (exists_isTyped_iff hf hstop).2 ⟨m, hm, hc, hp, rfl⟩
      exact ⟨step, hs, _, hk⟩
  · rw [← expects_iff_of_nodup hnodup hm, expects_run h, exists_isTyped_iff hf hstop]
    simp [hfresh]
  · have hkeys := hchildren.imp fun m child hm => by
      obtain ⟨g, definition, -, -, hw⟩ := hwalk m child hm
      exact key_walkBelow hw
    rw [hc]
    exact (map_eq_map_of_forall₂ hkeys).symm
  · obtain ⟨g, hg⟩ := (mem_metIn_iff hstop).1 hm
    have hat := isAt_of_field_mem hf hg
    obtain ⟨change, hs⟩ := change_of_run h _ hg
    obtain ⟨definition, hd, -⟩ := change_field hs
    rw [hat.type] at hd
    exact Option.isSome_iff_exists.2 ⟨definition, hd⟩
  · intro i m child definition hm hi hd
    rw [hc] at hi
    obtain ⟨g, definition', -, hd', hw⟩ := hwalk m child (rel_of_forall₂ hchildren hm hi)
    rw [hd] at hd'
    cases hd'
    have hlt : sizeOf m.selections < sizeOf selections :=
      sizeOf_lt_of_mem_metIn (List.mem_of_mem_filter (List.mem_of_getElem? hm))
    exact mirrors_walkSet (Frame.isAt_forField ..) (isFresh_holding ..) hw
termination_by sizeOf selections

/-! ## Two fixtures -/

/-- A walk of an operation that is not cut off builds the tree that belongs to the operation. -/
theorem mirrors_walkOperation {schema : Schema} {root : String} {operation : Operation} {fixture : Json}
    {e : Expectation} (h : (walkOperation schema root operation fixture).outcome = .ok e) :
    Mirrors schema root operation.selections e := by
  rw [outcome_walkOperation] at h
  exact mirrors_walkSet (Frame.isAt_forField ..) (isFresh_holding ..) h

/-- **What is expected depends on the query alone.** Of two checks with one query, both are cut off with the same last
message or neither is; and if neither is, the trees of expectations differ in the objects alone and are those that
belong to the operation. -/
theorem check_depends_on_query {schema : Schema} {document : Document} {name : Option String} {fixture fixture' : Json}
    {result result' : CheckResult} (h : check schema document fixture name = .ok result)
    (h' : check schema document fixture' name = .ok result') :
    ∃ operation root, Compares schema document name operation root ∧
      result = .ofWalk (walkOperation schema root operation fixture) ∧
      result' = .ofWalk (walkOperation schema root operation fixture') ∧
      ((∃ cause : Abort, result.aborted = true ∧ result'.aborted = true ∧
          result.errors.getLast? = some cause.message ∧ result'.errors.getLast? = some cause.message) ∨
        ∃ e e', result.aborted = false ∧ result'.aborted = false ∧
          (walkOperation schema root operation fixture).outcome = .ok e ∧
          (walkOperation schema root operation fixture').outcome = .ok e' ∧
          e.withoutObjects = e'.withoutObjects ∧
          Mirrors schema root operation.selections e ∧ Mirrors schema root operation.selections e') := by
  obtain ⟨operation, root, hc, rfl⟩ := check_eq_ok_iff.1 h
  obtain ⟨operation', root', hc', rfl⟩ := check_eq_ok_iff.1 h'
  obtain ⟨rfl, rfl⟩ := hc.unique hc'
  refine ⟨operation, root, hc, rfl, rfl, ?_⟩
  have herase : (walkOperation schema root operation fixture).outcome.map withoutObjects =
      (walkOperation schema root operation fixture').outcome.map withoutObjects := by
    rw [outcome_walkOperation_withoutObjects, outcome_walkOperation_withoutObjects]
  cases hw : (walkOperation schema root operation fixture).outcome with
  | error cause =>
    cases hw' : (walkOperation schema root operation fixture').outcome with
    | ok e' => simp [hw, hw', Except.map] at herase
    | error cause' =>
      have hcause : cause = cause' := by simpa [hw, hw', Except.map] using herase
      subst hcause
      obtain ⟨ha, hl⟩ := ofWalk_error hw
      obtain ⟨ha', hl'⟩ := ofWalk_error hw'
      exact .inl ⟨cause, ha, ha', hl, hl'⟩
  | ok e =>
    cases hw' : (walkOperation schema root operation fixture').outcome with
    | error cause' => simp [hw, hw', Except.map] at herase
    | ok e' =>
      have herased : e.withoutObjects = e'.withoutObjects := by simpa [hw, hw', Except.map] using herase
      exact .inr ⟨e, e', by rw [ofWalk_ok hw], by rw [ofWalk_ok hw'], rfl, rfl, herased, mirrors_walkOperation hw,
        mirrors_walkOperation hw'⟩

/-! ## Pets -/

/-- Pets are cats, which have a name, and dogs, which have friends as well. -/
def petSchema : Schema where
  types :=
    ⟨"Query", .object [] [⟨"pets", .list (.named "Pet"), []⟩]⟩ ::
    ⟨"Pet", .union ["Cat", "Dog"]⟩ ::
    ⟨"Cat", .object [] [⟨"name", .nonNull (.named "String"), []⟩]⟩ ::
    ⟨"Dog", .object [] [⟨"name", .nonNull (.named "String"), []⟩, ⟨"friend", .named "Pet", []⟩]⟩ ::
    GraphQL.Standard.types
  query := some "Query"
  mutation := none
  subscription := none
  directives := GraphQL.Standard.directives

/-- A field without arguments. -/
def plain (name : String) (selections : List Selection) : Selection := .field ⟨none, name, [], []⟩ selections

/-- The names of cats and the friends of dogs. -/
def petQuery : Document := [
  .operation ⟨none, .query, none, [], [], [plain "pets" [.spread "Described" []]]⟩,
  .fragment ⟨none, "Described", "Pet", [], [plain "__typename" [],
    .inline (some "Cat") [] [plain "name" []],
    .inline (some "Dog") [] [plain "friend" [plain "__typename" []]]]⟩]

/-- A cat and a dog without friends. -/
def pets : Json := .obj [("pets", .arr [
  .obj [("__typename", .str "Cat"), ("name", .str "Tom")],
  .obj [("__typename", .str "Dog"), ("friend", .null)]])]

theorem check_pets : check petSchema petQuery pets none = .ok ⟨[], false⟩ := by cbv

/-- A cat and a dog are expected to be what pets are expected to be where there are none. -/
theorem pets_expected_without_pets : ∃ operation root e e', Compares petSchema petQuery none operation root ∧
    (walkOperation petSchema root operation pets).outcome = .ok e ∧
    (walkOperation petSchema root operation (.obj [("pets", .null)])).outcome = .ok e' ∧
    e.withoutObjects = e'.withoutObjects ∧ Mirrors petSchema root operation.selections e := by
  have hnone : check petSchema petQuery (.obj [("pets", .null)]) none = .ok ⟨[], false⟩ := by cbv
  obtain ⟨operation, root, hc, -, -, ⟨cause, ha, -⟩ | ⟨e, e', -, -, he, he', h, hm, -⟩⟩ :=
    check_depends_on_query check_pets hnone
  · exact absurd ha Bool.false_ne_true
  · exact ⟨operation, root, e, e', hc, he, he', h, hm⟩

end FixtureCheck.Fixture
