import FixtureCheck.Fixture.Check
import FixtureCheck.Proofs.Except

/-!
# The steps of a walk

A walk goes through a selection set and the inline fragments in it before it goes down to the set of the next field.
`setSteps` lists what it does at this one level: it enters sets, looks at fields on the objects of a frame, and stops
where the query is wrong. `run` carries the steps out on an expectation.

* The walk through a set is the run of its steps (`walkSet_eq_run`).
* A step that does not cut the walk off changes the expectation in a way that does not depend on it (`Step.change`,
  `outcome_run_cons`), and reports mismatches that do not depend on it (`Step.errors`, `errors_run`).
-/

namespace FixtureCheck.Fixture

open GraphQL (Schema Document Field Selection OutputField Operation)

/-! ## Results of walks in a row -/

namespace Checking

variable {α β γ : Type}

theorem bind_def (x : Checking α) (f : α → Checking β) : x >>= f = x.andThen f := rfl

@[simp] theorem done_andThen (a : α) (f : α → Checking β) : (done a).andThen f = f a := by
  simp [done, andThen]

theorem andThen_assoc (x : Checking α) (f : α → Checking β) (g : β → Checking γ) :
    (x.andThen f).andThen g = x.andThen fun a => (f a).andThen g := by
  obtain ⟨errors, outcome⟩ := x
  cases outcome with
  | error c => rfl
  | ok a => cases h : (f a).outcome <;> simp [andThen, h]

@[simp] theorem andThen_done (x : Checking α) : x.andThen done = x := by
  obtain ⟨errors, outcome⟩ := x
  cases outcome <;> simp [andThen, done]

theorem outcome_andThen (x : Checking α) (f : α → Checking β) :
    (x.andThen f).outcome = x.outcome.bind fun a => (f a).outcome := by
  obtain ⟨errors, outcome⟩ := x
  cases outcome <;> rfl

theorem errors_andThen {x : Checking α} {a : α} (h : x.outcome = .ok a) (f : α → Checking β) :
    (x.andThen f).errors = x.errors ++ (f a).errors := by
  simp [andThen, h]

end Checking

/-! ## Fields on their own -/

/-- The frame below a field, with the objects that stand there. -/
def Frame.below (schema : Schema) (frame : Frame) (key : String) (definition : OutputField) : Frame :=
  .forField schema (checkAll schema frame key definition.type).children definition.type.base frame.typenameKey

/-- The scope of a field that holds objects and expects nothing yet. -/
def Expectation.holding (key : Option String) (values : List Located) : Expectation :=
  ({ key } : Expectation).addObjects values

/-- The walk through the selection set below a field. -/
def walkBelow (schema : Schema) (frame : Frame) (f : Field) (definition : OutputField) (selections : List Selection) :
    Checking Expectation :=
  let below := frame.below schema f.key definition
  walkSet schema selections below (.holding (some f.key) below.values)

/-- The walk through a field. -/
def walkField (schema : Schema) (frame : Frame) (f : Field) (selections : List Selection) (e : Expectation) :
    Checking Expectation :=
  match schema.fieldOf? (some frame.type) f.name with
  | none => .abort (.unknownField f.key)
  | some definition =>
    (Checking.report (checkAll schema frame f.key definition.type).errors).andThen fun _ =>
      if selections.isEmpty then .done (e.record f.key frame.condition frame.possible)
      else (walkBelow schema frame f definition selections).andThen fun child =>
        .done ((e.record f.key frame.condition frame.possible).addChild child)

theorem walkSelection_field (schema : Schema) (f : Field) (selections : List Selection) (frame : Frame)
    (e : Expectation) : walkSelection schema (.field f selections) frame e = walkField schema frame f selections e := by
  rw [walkSelection]
  rfl

/-! ## Steps -/

/-- What a walk does at one level of a query; `conditions` are the type conditions around, the outermost first. -/
inductive Step where
  /-- It is cut off. -/
  | stop (cause : Abort)
  /-- It enters a selection set: that of a field, or one in an inline fragment. -/
  | set (conditions : List String) (frame : Frame) (selections : List Selection)
  /-- It looks at a field on the objects of a frame. -/
  | field (conditions : List String) (frame : Frame) (field : Field) (selections : List Selection)

/-- Carries a step out. -/
def Step.run (schema : Schema) : Step → Expectation → Checking Expectation
  | stop cause, _ => .abort cause
  | set _ frame _, e => .done (e.withTypenameKey frame.typenameKey)
  | field _ frame f selections, e => walkField schema frame f selections e

/-- Carries steps out, one after the other. -/
def run (schema : Schema) : List Step → Expectation → Checking Expectation
  | [], e => .done e
  | step :: rest, e => (step.run schema e).andThen (run schema rest)

/-- The frame of a selection set, with the set's own key for type names if it has one. -/
def Frame.inSet (frame : Frame) (selections : List Selection) : Frame :=
  frame.withTypenameKey (typenameKey? selections)

mutual

/-- The steps of a walk through a selection set. -/
def setSteps (schema : Schema) (conditions : List String) (selections : List Selection) (frame : Frame) : List Step :=
  match selections with
  | [] => []
  | first :: rest =>
    if lacksTypename schema frame (first :: rest) then [.stop (.missingTypename frame.type)]
    else
      let frame := frame.inSet (first :: rest)
      .set conditions frame (first :: rest) ::
        (selectionSteps schema conditions first frame ++ selectionsSteps schema conditions rest frame)

/-- The steps of a walk through selections in a row. -/
def selectionsSteps (schema : Schema) (conditions : List String) (selections : List Selection) (frame : Frame) :
    List Step :=
  match selections with
  | [] => []
  | first :: rest => selectionSteps schema conditions first frame ++ selectionsSteps schema conditions rest frame

/-- The steps of a walk through a selection. -/
def selectionSteps (schema : Schema) (conditions : List String) (selection : Selection) (frame : Frame) : List Step :=
  match selection with
  | .field f selections => [.field conditions frame f selections]
  | .spread .. => []
  | .inline condition _ selections =>
    match condition.filter fun name => (schema.type? name).isNone with
    | some name => [.stop (.unknownCondition name)]
    | none => setSteps schema (conditions ++ condition.toList) selections (frame.enter schema condition)

end

variable {schema : Schema}

theorem run_append (schema : Schema) : ∀ (a b : List Step) (e : Expectation),
    run schema (a ++ b) e = (run schema a e).andThen (run schema b)
  | [], _, _ => by simp [run]
  | step :: a, b, e => by
    simp only [List.cons_append, run, Checking.andThen_assoc]
    congr 1
    funext e
    exact run_append schema a b e

mutual

/-- **The walk through a selection set is the run of its steps.** -/
theorem walkSet_eq_run (schema : Schema) (conditions : List String) (selections : List Selection) (frame : Frame)
    (e : Expectation) :
    walkSet schema selections frame e = run schema (setSteps schema conditions selections frame) e :=
  match selections with
  | [] => by
    rw [walkSet, walkSelections, setSteps]
    rfl
  | first :: rest => by
    rw [walkSet, setSteps]
    split
    · rfl
    · simp only [run, run_append, Checking.bind_def, Step.run, Checking.done_andThen]
      rw [walkSelection_eq_run schema conditions first]
      congr 1
      funext e
      exact walkSelections_eq_run schema conditions rest _ e

/-- The walk through selections in a row is the run of their steps. -/
theorem walkSelections_eq_run (schema : Schema) (conditions : List String) (selections : List Selection) (frame : Frame)
    (e : Expectation) :
    walkSelections schema selections frame e = run schema (selectionsSteps schema conditions selections frame) e :=
  match selections with
  | [] => by
    rw [walkSelections, selectionsSteps]
    rfl
  | first :: rest => by
    rw [walkSelections, selectionsSteps, run_append, Checking.bind_def, walkSelection_eq_run schema conditions first]
    congr 1
    funext e
    exact walkSelections_eq_run schema conditions rest _ e

/-- The walk through a selection is the run of its steps. -/
theorem walkSelection_eq_run (schema : Schema) (conditions : List String) (selection : Selection) (frame : Frame)
    (e : Expectation) :
    walkSelection schema selection frame e = run schema (selectionSteps schema conditions selection frame) e :=
  match selection with
  | .field f selections => by
    rw [walkSelection_field, selectionSteps]
    simp only [run, Step.run]
    exact (Checking.andThen_done _).symm
  | .spread .. => by
    rw [walkSelection, selectionSteps]
    rfl
  | .inline condition _ selections => by
    rw [walkSelection, selectionSteps]
    cases condition.filter fun name => (schema.type? name).isNone with
    | some name => rfl
    | none => exact walkSet_eq_run schema _ selections _ e

end

/-! ## What a step does -/

/-- What a step makes of an expectation, unless it cuts the walk off. -/
def Step.change (schema : Schema) : Step → Except Abort (Expectation → Expectation)
  | stop cause => .error cause
  | set _ frame _ => .ok (·.withTypenameKey frame.typenameKey)
  | field _ frame f selections =>
    match schema.fieldOf? (some frame.type) f.name with
    | none => .error (.unknownField f.key)
    | some definition =>
      if selections.isEmpty then .ok (·.record f.key frame.condition frame.possible)
      else (walkBelow schema frame f definition selections).outcome.map fun child e =>
        (e.record f.key frame.condition frame.possible).addChild child

/-- The mismatches that a step reports. -/
def Step.errors (schema : Schema) : Step → List Mismatch
  | field _ frame f selections =>
    match schema.fieldOf? (some frame.type) f.name with
    | none => []
    | some definition =>
      (checkAll schema frame f.key definition.type).errors ++
        if selections.isEmpty then [] else (walkBelow schema frame f definition selections).errors
  | _ => []

theorem Step.outcome_run (schema : Schema) (step : Step) (e : Expectation) :
    (step.run schema e).outcome = (step.change schema).map (· e) := by
  cases step with
  | stop cause => rfl
  | set conditions frame selections => rfl
  | field conditions frame f selections =>
    simp only [Step.run, Step.change, walkField]
    cases schema.fieldOf? (some frame.type) f.name with
    | none => rfl
    | some definition =>
      simp only [Checking.outcome_andThen, Checking.report, Except.bind]
      cases selections.isEmpty with
      | true => rfl
      | false =>
        simp only [Bool.false_eq_true, ↓reduceIte, Checking.outcome_andThen]
        cases (walkBelow schema frame f definition selections).outcome <;> rfl

theorem Step.errors_run (schema : Schema) (step : Step) (e : Expectation) :
    (step.run schema e).errors = step.errors schema := by
  cases step with
  | stop cause => rfl
  | set conditions frame selections => rfl
  | field conditions frame f selections =>
    simp only [Step.run, Step.errors, walkField]
    cases schema.fieldOf? (some frame.type) f.name with
    | none => rfl
    | some definition =>
      rw [Checking.errors_andThen (a := ()) rfl]
      cases selections.isEmpty with
      | true => rfl
      | false =>
        simp only [Bool.false_eq_true, ↓reduceIte, Checking.report]
        congr 1
        cases h : (walkBelow schema frame f definition selections).outcome with
        | error c => simp [Checking.andThen, h]
        | ok child => simp [Checking.errors_andThen h, Checking.done]

theorem outcome_run_cons {step : Step} {rest : List Step} {e e' : Expectation} :
    (run schema (step :: rest) e).outcome = .ok e' ↔
      ∃ change, step.change schema = .ok change ∧ (run schema rest (change e)).outcome = .ok e' := by
  simp only [run, Checking.outcome_andThen, Step.outcome_run]
  cases step.change schema with
  | error c => simp [Except.map, Except.bind]
  | ok change => simp [Except.map, Except.bind]

/-- A run that is not cut off reports the mismatches of its steps. -/
theorem errors_run : ∀ {steps : List Step} {e e' : Expectation}, (run schema steps e).outcome = .ok e' →
    (run schema steps e).errors = steps.flatMap (Step.errors schema)
  | [], _, _, _ => rfl
  | step :: rest, e, e', h => by
    obtain ⟨change, hc, hr⟩ := outcome_run_cons.1 h
    have hs : (step.run schema e).outcome = .ok (change e) := by rw [Step.outcome_run, hc]; rfl
    simp only [run, Checking.errors_andThen hs, Step.errors_run, List.flatMap_cons, errors_run hr]

/-- No step of a run that is not cut off cuts it off. -/
theorem change_of_run : ∀ {steps : List Step} {e e' : Expectation}, (run schema steps e).outcome = .ok e' →
    ∀ step ∈ steps, ∃ change, step.change schema = .ok change
  | [], _, _, _, _, hm => absurd hm List.not_mem_nil
  | step :: rest, _, _, h, s, hm => by
    obtain ⟨change, hc, hr⟩ := outcome_run_cons.1 h
    rcases List.mem_cons.1 hm with rfl | hm
    · exact ⟨change, hc⟩
    · exact change_of_run hr s hm

/-- What a field that does not cut the walk off does. -/
theorem change_field {conditions : List String} {frame : Frame} {f : Field} {selections : List Selection}
    {change : Expectation → Expectation}
    (h : (Step.field conditions frame f selections).change schema = .ok change) :
    ∃ definition, schema.fieldOf? (some frame.type) f.name = some definition ∧
      (selections = [] ∧ change = (·.record f.key frame.condition frame.possible) ∨
        selections ≠ [] ∧ ∃ child, (walkBelow schema frame f definition selections).outcome = .ok child ∧
          change = fun e => (e.record f.key frame.condition frame.possible).addChild child) := by
  simp only [Step.change] at h
  cases hd : schema.fieldOf? (some frame.type) f.name with
  | none => simp [hd] at h
  | some definition =>
    refine ⟨definition, rfl, ?_⟩
    simp only [hd] at h
    cases selections with
    | nil => exact .inl ⟨rfl, (Except.ok.inj h).symm⟩
    | cons first rest =>
      refine .inr ⟨List.cons_ne_nil _ _, ?_⟩
      simp only [List.isEmpty_cons, Bool.false_eq_true, ↓reduceIte] at h
      cases ho : (walkBelow schema frame f definition (first :: rest)).outcome with
      | error c => simp [ho, Except.map] at h
      | ok child => exact ⟨child, rfl, by simpa [ho, Except.map] using h.symm⟩

/-! ## Checks -/

/-- Does a check compare fixtures with an operation, from a root type on? -/
structure Compares (schema : Schema) (document : Document) (name : Option String) (operation : Operation)
    (root : String) : Prop where
  selected : ∃ inlined, GraphQL.inline document = .ok inlined ∧ selectOperation inlined name = .ok operation
  root : rootType schema operation = .ok root

/-- A check that does not fail tells about the walk through the operation it compares with. -/
theorem check_eq_ok_iff {document : Document} {fixture : Json} {name : Option String} {result : CheckResult} :
    check schema document fixture name = .ok result ↔ ∃ operation root,
      Compares schema document name operation root ∧
        result = .ofWalk (walkOperation schema root operation fixture) := by
  unfold check
  simp only [bind_eq_ok_iff, mapError_eq_ok_iff]
  constructor
  · rintro ⟨inlined, hi, operation, ho, root, hr, h⟩
    exact ⟨operation, root, ⟨⟨inlined, hi, ho⟩, hr⟩, (Except.ok.inj h).symm⟩
  · rintro ⟨operation, root, ⟨⟨inlined, hi, ho⟩, hr⟩, rfl⟩
    exact ⟨inlined, hi, operation, ho, root, hr, rfl⟩

/-- A check compares all fixtures with the same operation. -/
theorem Compares.unique {document : Document} {name : Option String} {operation operation' : Operation}
    {root root' : String} (h : Compares schema document name operation root)
    (h' : Compares schema document name operation' root') : operation = operation' ∧ root = root' := by
  obtain ⟨⟨inlined, hi, ho⟩, hr⟩ := h
  obtain ⟨⟨inlined', hi', ho'⟩, hr'⟩ := h'
  rw [hi] at hi'
  cases hi'
  rw [ho] at ho'
  cases ho'
  rw [hr] at hr'
  cases hr'
  exact ⟨rfl, rfl⟩

/-- A check compares fixtures with an operation, or it fails for all of them. -/
theorem exists_compares_or (schema : Schema) (document : Document) (name : Option String) :
    (∃ operation root, Compares schema document name operation root) ∨
      ∃ cause, ∀ fixture, check schema document fixture name = .error cause := by
  cases hi : GraphQL.inline document with
  | error cause =>
    refine .inr ⟨.inlining cause, fun fixture => ?_⟩
    rw [check, hi]
    rfl
  | ok inlined =>
    have hinlined : (GraphQL.inline document).mapError CheckError.inlining = .ok inlined := mapError_eq_ok_iff.2 hi
    cases ho : selectOperation inlined name with
    | error cause =>
      refine .inr ⟨cause, fun fixture => ?_⟩
      rw [check, hinlined, ok_bind, ho]
      rfl
    | ok operation =>
      cases hr : rootType schema operation with
      | error cause =>
        refine .inr ⟨cause, fun fixture => ?_⟩
        rw [check, hinlined, ok_bind, ho, ok_bind, hr]
        rfl
      | ok root => exact .inl ⟨operation, root, ⟨inlined, hi, ho⟩, hr⟩

/-- What a walk that is cut off amounts to. -/
theorem ofWalk_error {walk : Checking Expectation} {cause : Abort} (h : walk.outcome = .error cause) :
    (CheckResult.ofWalk walk).aborted = true ∧ (CheckResult.ofWalk walk).errors.getLast? = some cause.message := by
  simp [CheckResult.ofWalk, h]

theorem ofWalk_ok {walk : Checking Expectation} {e : Expectation} (h : walk.outcome = .ok e) :
    CheckResult.ofWalk walk =
      ⟨walk.errors.map (·.message) ++ (extraFields e).map fun key => (Mismatch.extraField key).message, false⟩ := by
  simp [CheckResult.ofWalk, h]

/-- A check finds the mismatches of a walk that is not cut off, and the keys that it leaves over. -/
theorem Compares.check_eq {document : Document} {name : Option String} {operation : Operation} {root : String}
    (h : Compares schema document name operation root) {fixture : Json} (mismatches : List Mismatch)
    (keys : List String)
    (he : (walkOperation schema root operation fixture).errors = mismatches)
    (hk : (walkOperation schema root operation fixture).outcome.map extraFields = .ok keys) :
    check schema document fixture name =
      .ok ⟨(mismatches ++ keys.map Mismatch.extraField).map Mismatch.message, false⟩ := by
  refine check_eq_ok_iff.2 ⟨operation, root, h, ?_⟩
  cases hw : (walkOperation schema root operation fixture).outcome with
  | error cause =>
    rw [hw] at hk
    cases hk
  | ok tree =>
    rw [hw] at hk
    cases hk
    rw [ofWalk_ok hw, he, List.map_append, List.map_map]
    rfl

end FixtureCheck.Fixture
