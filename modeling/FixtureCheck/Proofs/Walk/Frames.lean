import FixtureCheck.Proofs.Field.Flatten
import FixtureCheck.Proofs.Walk.Asked
import FixtureCheck.Proofs.Walk.Objects
import FixtureCheck.Proofs.Walk.TypeNames

/-!
# The frames of a walk

`GoesThrough` relates the frames that a walk comes to, whether it is cut off or not, to the type of the field around,
the objects of the scope and the type conditions around. What a walk reports it finds in such frames, and it reports
what it finds there unless it is cut off (`isFoundIn_of_mem_walkOperation`, `mem_walkOperation_of_isFoundIn`). The type
and the conditions determine the types of the frame, and the objects of the frame are some of the scope, in order
(`GoesThrough.isAt`): no object is held twice, since objects below a field stand at different places (`distinct_below`).
Entering type conditions one after the other comes to the same types and objects in any order, however often
(`values_enterAll`). `frame_determined` gathers these.
-/

namespace FixtureCheck.Fixture

open GraphQL (Schema Field Selection Operation OutputField TypeRef)
open Expectation

/-! ## Places below a field -/

/-- Do values stand at different places? -/
def AtDistinctPlaces (values : List Located) : Prop := values.Pairwise (·.path ≠ ·.path)

section

variable {schema : Schema} {frame : Frame} {key : String} {type : TypeRef} {parent : Located}

/-- The items of nested arrays stand at different places. -/
theorem atDistinctPlaces_flatten (item : TypeRef) (place : ItemPlace) (path : Json.Path) (items : List Json) :
    AtDistinctPlaces (flatten schema item place path items).children := by
  rw [flatten, flattenItems_eq]
  refine List.pairwise_map.2 (((pairwise_elementsFrom item 0 items).filter _).imp fun {d e} hlt hsame => ?_)
  have hindexes : d.indexes.map Json.Step.index = e.indexes.map Json.Step.index := List.append_cancel_left hsame
  have hinj : Function.Injective Json.Step.index := fun i j hij => Json.Step.index.inj hij
  rw [List.map_inj_right hinj] at hindexes
  rw [hindexes] at hlt
  exact lt_irrefl _ hlt

/-- **The check of a field goes on with values at different places.** -/
theorem atDistinctPlaces_checkField : AtDistinctPlaces (checkField schema frame key type parent).children := by
  unfold checkField
  split
  · split <;> exact .nil
  · split
    · exact .nil
    · split
      · split <;> exact .nil
      · split
        · exact .nil
        · split <;> exact .nil
      · exact atDistinctPlaces_flatten ..
      · exact .nil
      · split
        · exact .nil
        · split
          · exact List.pairwise_singleton _ _
          · exact .nil
      · exact .nil

/-- The objects below a field of an object stand under the key of the field. -/
theorem exists_path_of_mem_checkField (ho : schema.isOutputType type = true) (hp : type.isProper = true) {o : Located}
    (h : o ∈ (checkField schema frame key type parent).children) :
    ∃ q : Json.Path, (∀ s ∈ q, s.isIndex = true) ∧ o.path = parent.path ++ .key key :: q := by
  rcases isInputType_or_isComposite ho with hinput | hc
  · unfold checkField at h
    split at h
    · split at h <;> cases h
    · rw [if_pos hinput] at h
      cases h
  · obtain ⟨v, hv, ho⟩ := mem_children_checkField hc hp h
    obtain ⟨-, q, hq, hpath, -⟩ := mem_objectsAt ho
    obtain ⟨inner, -, rfl⟩ := Option.map_eq_some_iff.1 hv
    exact ⟨q, hq, by rw [hpath, List.append_assoc]; rfl⟩

/-- **The objects below a field stand at different places** if the objects that have the field do. -/
theorem distinct_below (hw : schema.IsWellFormed) {parentType : Option String} {name : String}
    {definition : OutputField} (hd : schema.fieldOf? parentType name = some definition)
    (h : AtDistinctPlaces frame.values) : AtDistinctPlaces (frame.below schema key definition).values := by
  obtain ⟨houtput, hproper⟩ := hw.fieldOf? hd
  show AtDistinctPlaces (checkAll schema frame key definition.type).children
  rw [checkAll_eq]
  refine List.pairwise_flatMap.2 ⟨fun v _ => atDistinctPlaces_checkField, h.imp fun {u v} hne o ho o' ho' hsame => ?_⟩
  obtain ⟨q, hq, hpath⟩ := exists_path_of_mem_checkField houtput hproper ho
  obtain ⟨q', hq', hpath'⟩ := exists_path_of_mem_checkField houtput hproper ho'
  rw [hpath, hpath'] at hsame
  exact hne (path_cancel hq hq' hsame).1

end

/-- Values at different places are all taken up. -/
theorem foldl_takeUp_of_distinct : ∀ {objects done : List Located}, AtDistinctPlaces (done ++ objects) →
    objects.foldl takeUp done = done ++ objects
  | [], done, _ => (List.append_nil done).symm
  | o :: rest, done, h => by
    have hnew : done.any (samePlace o) = false := by
      rw [List.any_eq_false]
      intro u hu hsame
      exact (List.pairwise_append.1 h).2.2 u hu o List.mem_cons_self (samePlace_iff.1 hsame).symm
    have hstep : takeUp done o = done ++ [o] := by
      rw [takeUp, hnew]
      rfl
    have hassoc : done ++ o :: rest = (done ++ [o]) ++ rest := by simp
    rw [hassoc] at h ⊢
    rw [List.foldl_cons, hstep, foldl_takeUp_of_distinct h]

/-- A scope holds all of the objects that it takes up if they stand at different places. -/
theorem objects_holding_of_distinct (key : Option String) {values : List Located}
    (hk : ∀ v ∈ values, kindOf v.value = .object) (h : AtDistinctPlaces values) :
    (holding key values).objects = values := by
  have hall : values.filter Located.isObject = values :=
    List.filter_eq_self.2 fun v hv => decide_eq_true (hk v hv)
  rw [objects_holding, hall, foldl_takeUp_of_distinct (by simpa using h), List.nil_append]

/-! ## Frames -/

/-- **The selections that a walk goes through, and the frames in which it does**: it takes up the key for type names
that a set has, enters fragments, and goes down below fields, with a scope of their own. The type is the one that the
field around is declared with, at the top the root type; the objects are those that the scope holds; and the conditions
are those of the fragments around, up to the field. -/
inductive GoesThrough (schema : Schema) (root : String) (values : List Located) (top : List Selection) :
    String → List Located → List String → Frame → List Selection → Prop where
  | start : GoesThrough schema root values top root (holding none values).objects []
      (.forField schema values root none) top
  | keyed {declared : String} {objects : List Located} {conditions : List String} {frame : Frame}
      {selections : List Selection}
      (through : GoesThrough schema root values top declared objects conditions frame selections) :
      GoesThrough schema root values top declared objects conditions (frame.inSet selections) selections
  | fragment {declared : String} {objects : List Located} {conditions : List String} {frame : Frame}
      {selections inner : List Selection} {condition : Option String} {directives : List GraphQL.Directive}
      (through : GoesThrough schema root values top declared objects conditions frame selections)
      (mem : .inline condition directives inner ∈ selections) :
      GoesThrough schema root values top declared objects (conditions ++ condition.toList)
        ((frame.inSet selections).enter schema condition) inner
  | field {declared : String} {objects : List Located} {conditions : List String} {frame : Frame}
      {selections inner : List Selection} {f : Field} {definition : OutputField}
      (through : GoesThrough schema root values top declared objects conditions frame selections)
      (mem : .field f inner ∈ selections)
      (known : schema.fieldOf? (some (frame.inSet selections).type) f.name = some definition) :
      GoesThrough schema root values top definition.type.base
        (holding (some f.key) ((frame.inSet selections).below schema f.key definition).values).objects []
        ((frame.inSet selections).below schema f.key definition) inner

section

variable {schema : Schema} {root : String} {values : List Located} {top selections : List Selection}
  {declared : String} {objects : List Located} {conditions : List String} {frame : Frame}

/-- **The field around and the conditions determine a frame** up to its objects, which are some of the scope, in order,
and its key for type names. -/
theorem GoesThrough.isAt (hw : schema.IsWellFormed) (hk : ∀ v ∈ values, kindOf v.value = .object)
    (hd : AtDistinctPlaces values)
    (h : GoesThrough schema root values top declared objects conditions frame selections) :
    frame.IsAt schema declared objects conditions ∧ AtDistinctPlaces objects := by
  induction h with
  | start =>
    rw [objects_holding_of_distinct none hk hd]
    exact ⟨Frame.isAt_forField .., hd⟩
  | keyed _ ih => exact ⟨ih.1.inSet _, ih.2⟩
  | fragment _ _ ih => exact ⟨(ih.1.inSet _).enter _, ih.2⟩
  | @field declared objects conditions frame selections inner f definition _ _ known ih =>
    have hdistinct : AtDistinctPlaces ((frame.inSet selections).below schema f.key definition).values :=
      distinct_below hw known (ih.2.sublist (ih.1.inSet selections).values)
    rw [objects_holding_of_distinct _ (holdsObjects_below hw known) hdistinct]
    exact ⟨Frame.isAt_forField .., hdistinct⟩

/-- A walk through a fixture starts on one object or none. -/
theorem GoesThrough.isAt_rootValues (hw : schema.IsWellFormed) {fixture : Json}
    (h : GoesThrough schema root (rootValues fixture) top declared objects conditions frame selections) :
    frame.IsAt schema declared objects conditions := by
  have hk : ∀ v ∈ rootValues fixture, kindOf v.value = .object := by
    intro v hv
    unfold rootValues at hv
    split at hv
    · rw [List.mem_singleton.1 hv]
      assumption
    · cases hv
  have hd : AtDistinctPlaces (rootValues fixture) := by
    unfold rootValues
    split
    · exact List.pairwise_singleton _ _
    · exact .nil
  exact (h.isAt hw hk hd).1

end

/-! ### Mismatches -/

section

variable {schema : Schema} {root : String} {values : List Located} {top : List Selection} {m : Mismatch}

/-- Does a walk find a mismatch where it looks at a field, in a frame that it comes to? -/
def IsFoundIn (schema : Schema) (root : String) (values : List Located) (top : List Selection) (m : Mismatch) : Prop :=
  ∃ declared objects conditions frame selections,
    GoesThrough schema root values top declared objects conditions frame selections ∧
      ∃ f inner definition, .field f inner ∈ selections ∧
        schema.fieldOf? (some (frame.inSet selections).type) f.name = some definition ∧
        ∃ v ∈ (frame.inSet selections).values,
          m ∈ (checkField schema (frame.inSet selections) f.key definition.type v).errors

mutual

theorem isFoundIn_of_mem_errors_walkSet {declared : String} {objects : List Located} {conditions : List String}
    {frame : Frame} {selections : List Selection} {e : Expectation}
    (ht : GoesThrough schema root values top declared objects conditions frame selections)
    (h : m ∈ (walkSet schema selections frame e).errors) : IsFoundIn schema root values top m :=
  match selections with
  | [] => by
    rw [walkSet, walkSelections] at h
    cases h
  | first :: rest => by
    rw [walkSet] at h
    split at h
    · cases h
    · rcases mem_errors_andThen h with h | ⟨e, h⟩
      · exact isFoundIn_of_mem_errors_walkSelection ht List.mem_cons_self h
      · exact isFoundIn_of_mem_errors_walkSelections ht (fun s hs => List.mem_cons_of_mem first hs) h

theorem isFoundIn_of_mem_errors_walkSelections {declared : String} {objects : List Located} {conditions : List String}
    {frame : Frame} {selections part : List Selection} {e : Expectation}
    (ht : GoesThrough schema root values top declared objects conditions frame selections)
    (hpart : ∀ s ∈ part, s ∈ selections) (h : m ∈ (walkSelections schema part (frame.inSet selections) e).errors) :
    IsFoundIn schema root values top m :=
  match part with
  | [] => by
    rw [walkSelections] at h
    cases h
  | first :: rest => by
    obtain ⟨hfirst, hrest⟩ := List.forall_mem_cons.1 hpart
    rw [walkSelections] at h
    rcases mem_errors_andThen h with h | ⟨e, h⟩
    · exact isFoundIn_of_mem_errors_walkSelection ht hfirst h
    · exact isFoundIn_of_mem_errors_walkSelections ht hrest h

theorem isFoundIn_of_mem_errors_walkSelection {declared : String} {objects : List Located} {conditions : List String}
    {frame : Frame} {selections : List Selection} {selection : Selection} {e : Expectation}
    (ht : GoesThrough schema root values top declared objects conditions frame selections)
    (hmem : selection ∈ selections) (h : m ∈ (walkSelection schema selection (frame.inSet selections) e).errors) :
    IsFoundIn schema root values top m :=
  match selection with
  | .field f inner => by
    rw [walkSelection_field, walkField] at h
    cases hd : schema.fieldOf? (some (frame.inSet selections).type) f.name with
    | none =>
      rw [hd] at h
      cases h
    | some definition =>
      simp only [hd] at h
      rcases mem_errors_andThen h with h | ⟨-, h⟩
      · rw [Checking.report, checkAll_eq] at h
        obtain ⟨v, hv, hm⟩ := List.mem_flatMap.1 h
        exact ⟨declared, objects, conditions, frame, selections, ht, f, inner, definition, hmem, hd, v, hv, hm⟩
      · split at h
        · cases h
        · rcases mem_errors_andThen h with h | ⟨child, h⟩
          · rw [walkBelow] at h
            exact isFoundIn_of_mem_errors_walkSet (.field ht hmem hd) h
          · cases h
  | .spread .. => by
    rw [walkSelection] at h
    cases h
  | .inline condition directives inner => by
    rw [walkSelection] at h
    split at h
    · cases h
    · exact isFoundIn_of_mem_errors_walkSet (.fragment ht hmem) h

end

/-- **What a walk reports it finds where it looks at a field**, in a frame that it comes to, unless it is that the
fixture is no object. -/
theorem isFoundIn_of_mem_walkOperation {operation : Operation} {fixture : Json}
    (h : m ∈ (walkOperation schema root operation fixture).errors) :
    m = .rootNotObject operation.kind (kindOf fixture) ∨
      IsFoundIn schema root (rootValues fixture) operation.selections m := by
  rw [walkOperation_eq] at h
  rcases mem_errors_andThen h with h | ⟨-, h⟩
  · rw [Checking.report] at h
    split at h
    · cases h
    · exact .inl (List.mem_singleton.1 h)
  · exact .inr (isFoundIn_of_mem_errors_walkSet .start h)

/-- A key for type names that a set has brought in already is not brought in anew. -/
theorem setSteps_inSet (conditions : List String) (selections : List Selection) (frame : Frame) :
    setSteps schema conditions selections (frame.inSet selections) = setSteps schema conditions selections frame := by
  cases selections with
  | nil => rw [setSteps, setSteps]
  | cons first rest =>
    have hlacks : lacksTypename schema (frame.inSet (first :: rest)) (first :: rest) =
        lacksTypename schema frame (first :: rest) := by
      rw [lacksTypename, lacksTypename, type_inSet]
    have hframe : (frame.inSet (first :: rest)).inSet (first :: rest) = frame.inSet (first :: rest) := by
      unfold Frame.inSet
      cases typenameKey? (first :: rest) <;> rfl
    rw [setSteps, setSteps, hlacks, hframe, type_inSet]

/-- A walk that is not stopped at a fragment enters the set in it. -/
theorem selectionSteps_inline {around : List String} {frame : Frame} {condition : Option String}
    {directives : List GraphQL.Directive} {inner : List Selection}
    (hstop : ∀ cause, Step.stop cause ∉ selectionSteps schema around (.inline condition directives inner) frame) :
    selectionSteps schema around (.inline condition directives inner) frame =
      setSteps schema (around ++ condition.toList) inner (frame.enter schema condition) := by
  rw [selectionSteps] at hstop ⊢
  split at hstop
  · exact absurd (List.mem_singleton_self _) (hstop _)
  · rfl

/-- **A walk that is not cut off takes all the steps in the sets that it comes to**, and reports what it finds there. -/
theorem GoesThrough.steps {declared : String} {objects : List Located} {conditions : List String} {frame : Frame}
    {selections : List Selection} {e tree : Expectation}
    (hw : (walkSet schema top (.forField schema values root none) e).outcome = .ok tree)
    (h : GoesThrough schema root values top declared objects conditions frame selections) :
    ∃ around, ∀ step ∈ setSteps schema around selections frame, step.IsOk schema ∧
      step.errors schema ⊆ (walkSet schema top (.forField schema values root none) e).errors := by
  induction h with
  | start =>
    rw [walkSet_eq_run schema []] at hw ⊢
    refine ⟨[], fun step hs => ⟨change_of_run hw step hs, fun m hm => ?_⟩⟩
    rw [errors_run hw]
    exact List.mem_flatMap.2 ⟨step, hs, hm⟩
  | keyed _ ih =>
    obtain ⟨around, ih⟩ := ih
    exact ⟨around, by rwa [setSteps_inSet]⟩
  | @fragment declared objects conditions frame selections inner condition directives _ hmem ih =>
    obtain ⟨around, ih⟩ := ih
    have hlacks : ¬ lacksTypename schema frame selections = true :=
      lacksTypename_of_not_stop (not_stop_of_isOk fun s hs => (ih s hs).1)
    have hinto : ∀ s ∈ selectionSteps schema around (.inline condition directives inner) (frame.inSet selections),
        s ∈ setSteps schema around selections frame :=
      fun s hs => (mem_setSteps_iff hlacks).2 (.inr (mem_selectionsSteps_of_mem hmem hs))
    have hstop := not_stop_of_isOk fun s hs => (ih s (hinto s hs)).1
    refine ⟨around ++ condition.toList, fun s hs => ih s (hinto s ?_)⟩
    rwa [selectionSteps_inline hstop]
  | @field declared objects conditions frame selections inner f definition _ hmem hknown ih =>
    obtain ⟨around, ih⟩ := ih
    have hlacks : ¬ lacksTypename schema frame selections = true :=
      lacksTypename_of_not_stop (not_stop_of_isOk fun s hs => (ih s hs).1)
    obtain ⟨⟨change, hchange⟩, herrors⟩ :=
      ih _ ((mem_setSteps_iff hlacks).2 (.inr (field_mem_selectionsSteps hmem)))
    obtain ⟨definition', hknown', ⟨rfl, -⟩ | ⟨hne, child, hchild, -⟩⟩ := change_field hchange
    · exact ⟨[], fun step hs => by simp [setSteps] at hs⟩
    · rw [hknown] at hknown'
      cases hknown'
      have hempty : inner.isEmpty = false := by simpa using hne
      simp only [Step.errors, hknown, hempty, Bool.false_eq_true, ↓reduceIte, walkBelow] at herrors
      rw [walkBelow, walkSet_eq_run schema []] at hchild
      rw [walkSet_eq_run schema [] inner, errors_run hchild] at herrors
      exact ⟨[], fun step hs => ⟨change_of_run hchild step hs, fun m hm =>
        herrors (List.mem_append_right _ (List.mem_flatMap.2 ⟨step, hs, hm⟩))⟩⟩

/-- A walk that is not cut off reports what it finds where it looks at a field, in a frame that it comes to. -/
theorem mem_walkOperation_of_isFoundIn {operation : Operation} {fixture : Json} {tree : Expectation}
    (hw : (walkOperation schema root operation fixture).outcome = .ok tree)
    (h : IsFoundIn schema root (rootValues fixture) operation.selections m) :
    m ∈ (walkOperation schema root operation fixture).errors := by
  obtain ⟨declared, objects, conditions, frame, selections, hthrough, f, inner, definition, hmem, hknown, v, hv,
    hm⟩ := h
  rw [walkOperation_eq] at hw ⊢
  have hwalk : (walkSet schema operation.selections (.forField schema (rootValues fixture) root none)
      (.holding none (rootValues fixture))).outcome = .ok tree := by
    rwa [Checking.outcome_andThen] at hw
  rw [Checking.errors_andThen (a := ()) rfl]
  obtain ⟨around, hsteps⟩ := hthrough.steps hwalk
  have hlacks : ¬ lacksTypename schema frame selections = true :=
    lacksTypename_of_not_stop (not_stop_of_isOk fun s hs => (hsteps s hs).1)
  obtain ⟨-, herrors⟩ := hsteps _ ((mem_setSteps_iff hlacks).2 (.inr (field_mem_selectionsSteps hmem)))
  refine List.mem_append_right _ (herrors ?_)
  rw [Step.errors, hknown]
  refine List.mem_append_left _ ?_
  rw [checkAll_eq]
  exact List.mem_flatMap.2 ⟨v, hv, hm⟩

end

/-! ## Conditions in a row -/

namespace Frame

variable {schema : Schema}

/-- The frame inside fragments within each other, the outermost first. -/
def enterAll (schema : Schema) (frame : Frame) (conditions : List (Option String)) : Frame :=
  conditions.foldl (·.enter schema ·) frame

theorem enterAll_cons (frame : Frame) (condition : Option String) (rest : List (Option String)) :
    frame.enterAll schema (condition :: rest) = (frame.enter schema condition).enterAll schema rest := rfl

theorem mem_possible_enter {frame : Frame} {condition : Option String} {type : String} :
    type ∈ (frame.enter schema condition).possible ↔
      type ∈ frame.possible ∧ ∀ c, condition = some c → type ∈ schema.possibleTypes c := by
  cases condition with
  | none => simp [enter]
  | some c => simp [enter, narrow]

/-- The types inside fragments are those that meet all of the conditions. -/
theorem mem_possible_enterAll {type : String} : ∀ {conditions : List (Option String)} {frame : Frame},
    type ∈ (frame.enterAll schema conditions).possible ↔
      type ∈ frame.possible ∧ ∀ c, some c ∈ conditions → type ∈ schema.possibleTypes c
  | [], _ => by simp [enterAll]
  | condition :: rest, frame => by
    rw [enterAll_cons, mem_possible_enterAll, mem_possible_enter, and_assoc, ← forall_and]
    refine and_congr_right fun _ => forall_congr' fun c => ?_
    rw [List.mem_cons, or_imp, eq_comm (a := condition)]

theorem fieldPossible_enterAll : ∀ (conditions : List (Option String)) (frame : Frame),
    (frame.enterAll schema conditions).fieldPossible = frame.fieldPossible
  | [], _ => rfl
  | condition :: rest, frame => by
    rw [enterAll_cons, fieldPossible_enterAll rest]
    cases condition <;> rfl

/-- Fragments without conditions change nothing. -/
theorem enterAll_of_no_condition : ∀ {conditions : List (Option String)} {frame : Frame},
    (∀ c, some c ∉ conditions) → frame.enterAll schema conditions = frame
  | [], _, _ => rfl
  | none :: rest, frame, h => by
    have hrest : frame.enterAll schema rest = frame :=
      enterAll_of_no_condition fun c hc => h c (List.mem_cons_of_mem _ hc)
    rw [enterAll_cons]
    exact hrest
  | some c :: rest, _, h => absurd List.mem_cons_self (h c)

/-- **The objects inside fragments are those that name no type, or one that is left in the end**, in order: what is left
in between are more types. -/
theorem values_enterAll : ∀ {conditions : List (Option String)} {frame : Frame}, (∃ c, some c ∈ conditions) →
    (frame.enterAll schema conditions).values =
      frame.values.filter (isReached frame.typenameKey (frame.enterAll schema conditions).possible)
  | [], _, h => by
    obtain ⟨c, hc⟩ := h
    cases hc
  | none :: rest, frame, h => by
    obtain ⟨c, hc⟩ := h
    rw [enterAll_cons]
    exact values_enterAll ⟨c, (List.mem_cons.1 hc).resolve_left (by simp)⟩
  | some c :: rest, frame, _ => by
    rw [enterAll_cons]
    have hfirst : (frame.enter schema (some c)).values =
        frame.values.filter (isReached frame.typenameKey (frame.enter schema (some c)).possible) := rfl
    by_cases hrest : ∃ c', some c' ∈ rest
    · rw [values_enterAll hrest, hfirst, List.filter_filter]
      refine List.filter_congr fun v _ => ?_
      rw [Bool.eq_iff_iff, Bool.and_eq_true, isReached_iff, isReached_iff, isReached_iff]
      refine and_iff_left_of_imp fun hv type ht => ?_
      exact (mem_possible_enterAll.1 (hv type ht)).1
    · rw [enterAll_of_no_condition fun c' hc' => hrest ⟨c', hc'⟩]
      exact hfirst

/-- The order and the number of conditions do not matter to the types that are left. -/
theorem possible_enterAll_congr {conditions conditions' : List (Option String)}
    (h : ∀ c, some c ∈ conditions ↔ some c ∈ conditions') (frame : Frame) :
    (frame.enterAll schema conditions).possible = (frame.enterAll schema conditions').possible :=
  NameSet.ext fun type => by
    rw [mem_possible_enterAll, mem_possible_enterAll]
    simp only [h]

end Frame

/-! ## Walks -/

/-- **The frames of a walk are determined by what is around them.** Whatever the fixture is, and whether the walk is cut
off or not, the types of a frame are those of the field around that meet the conditions around, and its objects are some
of the scope, in order. Fragments within each other come to the same types and objects in any order and however often
they are entered: to those objects that name no type or one that is left, or to all where there is no condition. -/
theorem frame_determined {schema : Schema} (hw : schema.IsWellFormed) :
    (∀ (root : String) (operation : Operation) (fixture : Json) declared objects conditions frame selections,
      GoesThrough schema root (rootValues fixture) operation.selections declared objects conditions frame selections →
        frame.fieldPossible = schema.possibleTypes declared ∧
        (∀ type, type ∈ frame.possible ↔
          type ∈ frame.fieldPossible ∧ ∀ c ∈ conditions, type ∈ schema.possibleTypes c) ∧
        frame.values.Sublist objects) ∧
    ∀ (frame : Frame) (key : Option String) (conditions conditions' : List (Option String)),
      (∀ c, some c ∈ conditions ↔ some c ∈ conditions') →
      let outer : Frame := { frame with typenameKey := key }
      let inner := outer.enterAll schema conditions
      let inner' := outer.enterAll schema conditions'
      inner.possible = inner'.possible ∧ inner.isNarrowed = inner'.isNarrowed ∧ inner.values = inner'.values ∧
        ((∃ c, some c ∈ conditions) → inner.values = frame.values.filter (Frame.isReached key inner.possible)) ∧
        ((∀ c, some c ∉ conditions) → inner = outer) := by
  refine ⟨fun root operation fixture declared objects conditions frame selections h => ?_,
    fun frame key conditions conditions' hsame => ?_⟩
  · have hat := h.isAt_rootValues hw
    refine ⟨hat.fieldPossible, fun type => ?_, hat.values⟩
    rw [hat.possible, hat.fieldPossible, mem_narrowAll]
  · let outer : Frame := { frame with typenameKey := key }
    have hpossible : (outer.enterAll schema conditions).possible = (outer.enterAll schema conditions').possible :=
      Frame.possible_enterAll_congr hsame outer
    refine ⟨hpossible, ?_, ?_, Frame.values_enterAll, Frame.enterAll_of_no_condition⟩
    · rw [Frame.isNarrowed, Frame.isNarrowed, hpossible, Frame.fieldPossible_enterAll, Frame.fieldPossible_enterAll]
    · by_cases hany : ∃ c, some c ∈ conditions
      · obtain ⟨c, hc⟩ := hany
        rw [Frame.values_enterAll ⟨c, hc⟩, Frame.values_enterAll ⟨c, (hsame c).1 hc⟩, hpossible]
      · have hnone : ∀ c, some c ∉ conditions := fun c hc => hany ⟨c, hc⟩
        rw [Frame.enterAll_of_no_condition hnone, Frame.enterAll_of_no_condition fun c hc => hnone c ((hsame c).2 hc)]

/-- The frame of the pets. -/
def namedPetsFrame : Frame :=
  ((startFrame petSchema "Query" pets).inSet kindOperation.selections).below petSchema "pets"
    ⟨"pets", .list (.named "Pet"), []⟩

/-- The frame of the cats among the pets. -/
def catsFrame : Frame := (namedPetsFrame.inSet petKinds).enter petSchema (some "Cat")

theorem goesThrough_catsFrame : GoesThrough petSchema "Query" (rootValues pets) kindOperation.selections "Pet"
    (holding (some "pets") namedPetsFrame.values).objects ["Cat"] catsFrame [plain "name" []] := by
  have hknown : petSchema.fieldOf? (some "Query") "pets" = some ⟨"pets", .list (.named "Pet"), []⟩ := by cbv
  have hfield : plain "pets" petKinds ∈ kindOperation.selections := List.mem_singleton_self _
  have hcat : .inline (some "Cat") [] [plain "name" []] ∈ petKinds := by simp [petKinds]
  exact (GoesThrough.start.field hfield hknown).fragment hcat

/-- The types and objects of the frame of the cats, and two ways to go on from there to dogs. -/
theorem catsFrame_determined : petSchema.IsWellFormed ∧
    (∀ type, type ∈ catsFrame.possible ↔ type ∈ petSchema.possibleTypes "Pet" ∧ type ∈ petSchema.possibleTypes "Cat") ∧
    catsFrame.values.Sublist (holding (some "pets") namedPetsFrame.values).objects ∧
    (catsFrame.enterAll petSchema [some "Pet", some "Dog"]).values =
      (catsFrame.enterAll petSchema [some "Dog", none, some "Pet", some "Dog"]).values := by
  obtain ⟨hwalk, hconditions⟩ := frame_determined petSchema_isWellFormed
  obtain ⟨hfield, hpossible, hvalues⟩ := hwalk _ _ _ _ _ _ _ _ goesThrough_catsFrame
  obtain ⟨-, -, hsame, -⟩ := hconditions catsFrame catsFrame.typenameKey [some "Pet", some "Dog"]
    [some "Dog", none, some "Pet", some "Dog"] (by simp)
  refine ⟨petSchema_isWellFormed, fun type => ?_, hvalues, hsame⟩
  rw [hpossible, hfield]
  simp

end FixtureCheck.Fixture
