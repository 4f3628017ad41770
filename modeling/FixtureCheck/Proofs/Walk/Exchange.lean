import FixtureCheck.Proofs.Walk.Reach

/-!
# Walks with other objects

`exchange g` puts other objects, those that `g` makes of lists of objects, into frames, steps and trees of expectations.
If `g` is no matter to the fragments of the sets that a walk reaches, to the objects below fields and to the objects of
scopes (`Exchanges`), then the walk through the other objects comes to the tree with the other objects, and reports the
same mismatches if each look at a field does (`walkSet_exchange`).
-/

namespace FixtureCheck.Fixture

open GraphQL (Schema Field Selection OutputField)

/-- The frame with other objects. -/
def Frame.exchange (g : List Located → List Located) (frame : Frame) : Frame := { frame with values := g frame.values }

/-- The step in the frame with other objects. -/
def Step.exchange (g : List Located → List Located) : Step → Step
  | stop cause => .stop cause
  | set conditions frame selections => .set conditions (frame.exchange g) selections
  | field conditions frame f selections => .field conditions (frame.exchange g) f selections

namespace Expectation

mutual

/-- The tree with other objects. -/
def exchange (g : List Located → List Located) : Expectation → Expectation
  | ⟨key, common, byType, typenameKey, children, objects⟩ =>
    ⟨key, common, byType, typenameKey, exchangeAll g children, g objects⟩

/-- The trees in a row with other objects. -/
def exchangeAll (g : List Located → List Located) : List Expectation → List Expectation
  | [] => []
  | e :: rest => e.exchange g :: exchangeAll g rest

end

variable {g : List Located → List Located}

theorem exchangeAll_eq_map : ∀ trees : List Expectation, exchangeAll g trees = trees.map (exchange g)
  | [] => rfl
  | e :: rest => congrArg (e.exchange g :: ·) (exchangeAll_eq_map rest)

@[simp] theorem objects_exchange (e : Expectation) : (e.exchange g).objects = g e.objects := by
  cases e
  rfl

@[simp] theorem applicable_exchange (e : Expectation) (v : Located) : (e.exchange g).applicable v = e.applicable v := by
  cases e
  rfl

@[simp] theorem exchange_withTypenameKey (e : Expectation) (key : Option String) :
    (e.withTypenameKey key).exchange g = (e.exchange g).withTypenameKey key := by
  cases e
  rfl

@[simp] theorem exchange_record (e : Expectation) (key : String) (condition : Option String) (possible : NameSet) :
    (e.record key condition possible).exchange g = (e.exchange g).record key condition possible := by
  cases e
  cases condition <;> rfl

@[simp] theorem exchange_addChild (e child : Expectation) :
    (e.addChild child).exchange g = (e.exchange g).addChild (child.exchange g) := by
  cases e
  simp [addChild, exchange, exchangeAll_eq_map]

mutual

/-- The scopes of the tree with other objects are its scopes with other objects. -/
theorem walk_exchange : ∀ e : Expectation, (e.exchange g).walk = e.walk.map (exchange g)
  | ⟨key, common, byType, typenameKey, children, objects⟩ => by
    rw [walk, exchange, walk, walkAll_exchangeAll, List.map_cons, exchange]

theorem walkAll_exchangeAll : ∀ trees : List Expectation,
    walkAll (exchangeAll g trees) = (walkAll trees).map (exchange g)
  | [] => rfl
  | e :: rest => by
    rw [exchangeAll, walkAll, walkAll, walk_exchange e, walkAll_exchangeAll rest, List.map_append]

end

/-- An expectation that expects nothing yet is told by its key and its objects. -/
theorem IsFresh.eq {e : Expectation} (h : e.IsFresh) : e = { key := e.key, objects := e.objects } := by
  obtain ⟨key, common, byType, typenameKey, children, objects⟩ := e
  obtain ⟨h1, h2, h3, h4⟩ := h
  simp only at h1 h2 h3 h4
  rw [h1, h2, h3, h4]

theorem holding_exchange {key : Option String} {values : List Located}
    (h : (holding key (g values)).objects = g (holding key values).objects) :
    holding key (g values) = (holding key values).exchange g := by
  rw [(isFresh_holding key (g values)).eq, (isFresh_holding key values).eq, h, key_holding, key_holding]
  rfl

end Expectation

open Expectation

variable {schema : Schema} {g : List Located → List Located}

/-! ## Steps -/

/-- Are fragments of no matter to other objects in a frame? -/
def Frame.Admits (g : List Located → List Located) (frame : Frame) : Prop :=
  ∀ possible, (g frame.values).filter (isReached frame.typenameKey possible) =
    g (frame.values.filter (isReached frame.typenameKey possible))

theorem Frame.exchange_inSet (frame : Frame) (selections : List Selection) :
    (frame.inSet selections).exchange g = (frame.exchange g).inSet selections := by
  unfold Frame.inSet
  cases typenameKey? selections <;> rfl

theorem Frame.exchange_enter {frame : Frame} (h : frame.Admits g) (condition : Option String) :
    (frame.enter schema condition).exchange g = (frame.exchange g).enter schema condition := by
  cases condition with
  | none => rfl
  | some c =>
    have hvalues := h (narrow schema frame.possible (some c))
    simp only [Frame.enter, Frame.exchange, hvalues]

mutual

/-- **The steps of a walk through other objects are the steps of the walk, with other objects.** -/
theorem setSteps_exchange {conditions : List String} {selections : List Selection} {frame : Frame}
    (h : ∀ cs narrowed inner, Step.set cs narrowed inner ∈ setSteps schema conditions selections frame →
      narrowed.Admits g) :
    setSteps schema conditions selections (frame.exchange g) =
      (setSteps schema conditions selections frame).map (Step.exchange g) :=
  match selections with
  | [] => by
    rw [setSteps, setSteps]
    rfl
  | first :: rest => by
    have hl : lacksTypename schema (frame.exchange g) (first :: rest) =
        lacksTypename schema frame (first :: rest) := rfl
    rw [setSteps] at h
    rw [setSteps, setSteps, hl]
    split
    · rfl
    · rename_i hno
      rw [if_neg hno] at h
      simp only [List.mem_cons, List.mem_append] at h
      have hin := h _ _ _ (.inl rfl)
      simp only [← Frame.exchange_inSet, List.map_cons, List.map_append, Step.exchange]
      rw [selectionSteps_exchange hin fun cs narrowed inner hm => h cs narrowed inner (.inr (.inl hm)),
        selectionsSteps_exchange hin fun cs narrowed inner hm => h cs narrowed inner (.inr (.inr hm))]

theorem selectionsSteps_exchange {conditions : List String} {selections : List Selection} {frame : Frame}
    (hf : frame.Admits g)
    (h : ∀ cs narrowed inner, Step.set cs narrowed inner ∈ selectionsSteps schema conditions selections frame →
      narrowed.Admits g) :
    selectionsSteps schema conditions selections (frame.exchange g) =
      (selectionsSteps schema conditions selections frame).map (Step.exchange g) :=
  match selections with
  | [] => by
    rw [selectionsSteps, selectionsSteps]
    rfl
  | first :: rest => by
    rw [selectionsSteps] at h
    simp only [List.mem_append] at h
    rw [selectionsSteps, selectionsSteps, List.map_append,
      selectionSteps_exchange hf fun cs narrowed inner hm => h cs narrowed inner (.inl hm),
      selectionsSteps_exchange hf fun cs narrowed inner hm => h cs narrowed inner (.inr hm)]

theorem selectionSteps_exchange {conditions : List String} {selection : Selection} {frame : Frame}
    (hf : frame.Admits g)
    (h : ∀ cs narrowed inner, Step.set cs narrowed inner ∈ selectionSteps schema conditions selection frame →
      narrowed.Admits g) :
    selectionSteps schema conditions selection (frame.exchange g) =
      (selectionSteps schema conditions selection frame).map (Step.exchange g) :=
  match selection with
  | .field f selections => by
    rw [selectionSteps, selectionSteps]
    rfl
  | .spread .. => by
    rw [selectionSteps, selectionSteps]
    rfl
  | .inline condition _ selections => by
    rw [selectionSteps] at h
    rw [selectionSteps, selectionSteps]
    cases hc : condition.filter fun name => (schema.type? name).isNone with
    | some name => rfl
    | none =>
      simp only [hc] at h ⊢
      rw [← Frame.exchange_enter hf, setSteps_exchange h]

end

mutual

/-- The set below a field that a walk looks at is smaller than the set that the walk goes through. -/
theorem sizeOf_lt_of_mem_setSteps {cs conditions : List String} {narrowed frame : Frame} {f : Field}
    {inner selections : List Selection}
    (hm : Step.field cs narrowed f inner ∈ setSteps schema conditions selections frame) :
    sizeOf inner < sizeOf selections :=
  match selections with
  | [] => by simp [setSteps] at hm
  | first :: rest => by
    rw [setSteps] at hm
    split at hm
    · simp at hm
    · simp only [List.mem_cons, List.mem_append, reduceCtorEq, false_or] at hm
      simp only [List.cons.sizeOf_spec]
      rcases hm with hm | hm
      · have := sizeOf_lt_of_mem_selectionSteps hm
        omega
      · have := sizeOf_lt_of_mem_selectionsSteps hm
        omega

theorem sizeOf_lt_of_mem_selectionsSteps {cs conditions : List String} {narrowed frame : Frame} {f : Field}
    {inner selections : List Selection}
    (hm : Step.field cs narrowed f inner ∈ selectionsSteps schema conditions selections frame) :
    sizeOf inner < sizeOf selections :=
  match selections with
  | [] => by simp [selectionsSteps] at hm
  | first :: rest => by
    rw [selectionsSteps, List.mem_append] at hm
    simp only [List.cons.sizeOf_spec]
    rcases hm with hm | hm
    · have := sizeOf_lt_of_mem_selectionSteps hm
      omega
    · have := sizeOf_lt_of_mem_selectionsSteps hm
      omega

theorem sizeOf_lt_of_mem_selectionSteps {cs conditions : List String} {narrowed frame : Frame} {f : Field}
    {inner : List Selection} {selection : Selection}
    (hm : Step.field cs narrowed f inner ∈ selectionSteps schema conditions selection frame) :
    sizeOf inner < sizeOf selection :=
  match selection with
  | .field f' selections => by
    rw [selectionSteps, List.mem_singleton] at hm
    cases hm
    simp only [Selection.field.sizeOf_spec]
    omega
  | .spread .. => by simp [selectionSteps] at hm
  | .inline condition _ selections => by
    rw [selectionSteps] at hm
    split at hm
    · simp at hm
    · have := sizeOf_lt_of_mem_setSteps hm
      simp only [Selection.inline.sizeOf_spec]
      omega

end

/-! ## Walks -/

/-- **Are other objects of no matter to a walk**: to the fragments in the sets that it reaches, to the objects that it
goes on with below fields, and to what scopes hold? -/
structure Exchanges (schema : Schema) (g : List Located → List Located) (top : List Selection) (start : Frame) :
    Prop where
  enters : ∀ selections frame, Reaches schema top start selections frame → ∀ cs narrowed inner,
    Step.set cs narrowed inner ∈ setSteps schema [] selections frame → narrowed.Admits g
  goesOn : ∀ selections frame, Reaches schema top start selections frame → ∀ narrowed m definition,
    LooksAt schema selections frame narrowed m definition →
      (checkAll schema (narrowed.exchange g) m.field.key definition.type).children =
        g (checkAll schema narrowed m.field.key definition.type).children
  holds : ∀ selections frame, Reaches schema top start selections frame → ∀ key,
    (holding key (g frame.values)).objects = g (holding key frame.values).objects

/-- Does each look at a field report the same with other objects? -/
def ReportsSame (schema : Schema) (g : List Located → List Located) (top : List Selection) (start : Frame) : Prop :=
  ∀ selections frame, Reaches schema top start selections frame → ∀ narrowed m definition,
    LooksAt schema selections frame narrowed m definition →
      (checkAll schema (narrowed.exchange g) m.field.key definition.type).errors =
        (checkAll schema narrowed m.field.key definition.type).errors

section

variable {top : List Selection} {start narrowed : Frame} {m : Met} {definition : OutputField}

theorem Exchanges.below (h : Exchanges schema g top start) (hl : LooksAt schema top start narrowed m definition)
    (hne : m.selections ≠ []) : Exchanges schema g m.selections (narrowed.below schema m.field.key definition) where
  enters selections frame hr := h.enters selections frame (.trans (.field .here hl hne) hr)
  goesOn selections frame hr := h.goesOn selections frame (.trans (.field .here hl hne) hr)
  holds selections frame hr := h.holds selections frame (.trans (.field .here hl hne) hr)

theorem ReportsSame.below (h : ReportsSame schema g top start) (hl : LooksAt schema top start narrowed m definition)
    (hne : m.selections ≠ []) : ReportsSame schema g m.selections (narrowed.below schema m.field.key definition) :=
  fun selections frame hr => h selections frame (.trans (.field .here hl hne) hr)

/-- The walk below a field starts with the other objects. -/
theorem Exchanges.walkBelow_exchange (h : Exchanges schema g top start)
    (hl : LooksAt schema top start narrowed m definition) (hne : m.selections ≠ []) :
    walkBelow schema (narrowed.exchange g) m.field definition m.selections =
      walkSet schema m.selections ((narrowed.below schema m.field.key definition).exchange g)
        ((holding (some m.field.key) (narrowed.below schema m.field.key definition).values).exchange g) := by
  have hbelow : (narrowed.exchange g).below schema m.field.key definition =
      (narrowed.below schema m.field.key definition).exchange g := by
    have hvalues := h.goesOn top start .here narrowed m definition hl
    simp only [Frame.below, Frame.exchange, Frame.forField] at hvalues ⊢
    rw [hvalues]
  have hholds := h.holds _ _ (.field .here hl hne) (some m.field.key)
  rw [walkBelow, hbelow, ← holding_exchange hholds]
  rfl

end

/-- Two ways in two parts come to ends that correspond, if their parts do. -/
theorem map_bind_of_map {α β : Type} {k : α → α} {k' : β → β} {x y : Except Abort α} {f f' : α → Except Abort β}
    (hx : x = y.map k) (hf : ∀ a, f (k a) = (f' a).map k') : x.bind f = (y.bind f').map k' := by
  subst hx
  cases y with
  | error c => rfl
  | ok a => exact hf a

/-- Steps in a row come to the tree with other objects, and report the same, if each of them does. -/
theorem run_exchange {same : Prop} : ∀ {steps : List Step},
    (∀ step ∈ steps, ∀ e : Expectation,
      ((step.exchange g).run schema (e.exchange g)).outcome = (step.run schema e).outcome.map (exchange g) ∧
        (same → (step.exchange g).errors schema = step.errors schema)) → ∀ e : Expectation,
      (run schema (steps.map (Step.exchange g)) (e.exchange g)).outcome =
          (run schema steps e).outcome.map (exchange g) ∧
        (same → (run schema (steps.map (Step.exchange g)) (e.exchange g)).errors = (run schema steps e).errors)
  | [], _, _ => ⟨rfl, fun _ => rfl⟩
  | step :: rest, h, e => by
    obtain ⟨hfirst, herrors⟩ := h step List.mem_cons_self e
    have hrest := run_exchange fun s hm => h s (List.mem_cons_of_mem _ hm)
    simp only [List.map_cons, run, Checking.outcome_andThen]
    refine ⟨map_bind_of_map hfirst fun a => (hrest a).1, fun hs => ?_⟩
    have hsame : ((step.exchange g).run schema (e.exchange g)).errors = (step.run schema e).errors := by
      rw [Step.errors_run, Step.errors_run, herrors hs]
    cases ho : (step.run schema e).outcome with
    | error cause =>
      rw [ho] at hfirst
      have hcut : ((step.exchange g).run schema (e.exchange g)).outcome = .error cause := hfirst
      simp only [Checking.andThen, ho, hcut, hsame]
    | ok a =>
      rw [ho] at hfirst
      have hok : ((step.exchange g).run schema (e.exchange g)).outcome = .ok (a.exchange g) := hfirst
      rw [Checking.errors_andThen hok, Checking.errors_andThen ho, hsame, (hrest a).2 hs]

/-- **A walk through other objects comes to the tree with other objects**, and reports the same if each look at a field
does. -/
theorem walkSet_exchange {top : List Selection} {start : Frame} (h : Exchanges schema g top start) (e : Expectation) :
    (walkSet schema top (start.exchange g) (e.exchange g)).outcome =
        (walkSet schema top start e).outcome.map (exchange g) ∧
      (ReportsSame schema g top start →
        (walkSet schema top (start.exchange g) (e.exchange g)).errors = (walkSet schema top start e).errors) := by
  have hsteps : ∀ step ∈ setSteps schema [] top start, ∀ e : Expectation,
      ((step.exchange g).run schema (e.exchange g)).outcome = (step.run schema e).outcome.map (exchange g) ∧
        (ReportsSame schema g top start → (step.exchange g).errors schema = step.errors schema) := by
    intro step hm e
    cases step with
    | stop cause => exact ⟨rfl, fun _ => rfl⟩
    | set conditions narrowed inner => exact ⟨congrArg Except.ok (exchange_withTypenameKey ..).symm, fun _ => rfl⟩
    | field conditions narrowed f inner =>
      have htype : (narrowed.exchange g).type = narrowed.type := rfl
      simp only [Step.exchange, Step.run, walkField, Step.errors, htype]
      cases hd : schema.fieldOf? (some narrowed.type) f.name with
      | none => exact ⟨rfl, fun _ => rfl⟩
      | some definition =>
        have hl : LooksAt schema top start narrowed ⟨conditions, f, inner⟩ definition := ⟨hm, hd⟩
        simp only [Checking.outcome_andThen, Checking.report, Except.bind]
        cases inner with
        | nil =>
          refine ⟨congrArg Except.ok (exchange_record ..).symm, fun hs => ?_⟩
          simpa using hs top start .here narrowed _ definition hl
        | cons first rest =>
          have hne : (⟨conditions, f, first :: rest⟩ : Met).selections ≠ [] := List.cons_ne_nil _ _
          have hlt := sizeOf_lt_of_mem_setSteps hm
          have hwalk := h.walkBelow_exchange hl hne
          obtain ⟨ho, he⟩ := walkSet_exchange (h.below hl hne)
            (holding (some f.key) (narrowed.below schema f.key definition).values)
          simp only at hwalk
          simp only [List.isEmpty_cons, Bool.false_eq_true, ↓reduceIte, Checking.outcome_andThen, hwalk]
          refine ⟨map_bind_of_map ho fun child => ?_, fun hs => ?_⟩
          · simp only [Checking.done, Except.map, exchange_addChild, exchange_record]
            rfl
          · have hhere := hs top start .here narrowed _ definition hl
            rw [hhere, he (hs.below hl hne)]
            rfl
  rw [walkSet_eq_run schema [], walkSet_eq_run schema [], setSteps_exchange (h.enters top start .here)]
  exact run_exchange hsteps e
termination_by sizeOf top

end FixtureCheck.Fixture
