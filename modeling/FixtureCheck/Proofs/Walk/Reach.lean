import FixtureCheck.Proofs.Walk.Mirror

/-!
# The sets that a walk reaches

A walk goes down from the selection set of a field to those of the fields met in it. `Reaches` relates the set and the
frame in which a walk starts to those it comes to. The mismatches of a walk that is not cut off are those found where it
looks at a field in a set that it reaches (`errors_walkSet_eq_nil`), and the scopes of its tree are those of these sets
(`exists_reaches_of_mem_walk`, `exists_mem_walk_of_reaches`).
-/

namespace FixtureCheck.Fixture

open GraphQL (Schema Field Selection OutputField)
open Expectation

/-- A walk through a selection set in a frame looks at a field, in the frame that the fragments around it leave. -/
structure LooksAt (schema : Schema) (selections : List Selection) (frame : Frame) (narrowed : Frame) (m : Met)
    (definition : OutputField) : Prop where
  step : Step.field m.conditions narrowed m.field m.selections ∈ setSteps schema [] selections frame
  known : schema.fieldOf? (some narrowed.type) m.field.name = some definition

/-- **The selection sets that a walk reaches** from a set in a frame, and the frames in which it reaches them. -/
inductive Reaches (schema : Schema) (top : List Selection) (start : Frame) : List Selection → Frame → Prop where
  | here : Reaches schema top start top start
  | field {selections : List Selection} {frame narrowed : Frame} {m : Met} {definition : OutputField}
      (reached : Reaches schema top start selections frame)
      (looks : LooksAt schema selections frame narrowed m definition) (nonempty : m.selections ≠ []) :
      Reaches schema top start m.selections (narrowed.below schema m.field.key definition)

/-- A walk through a selection set in a frame is not cut off and builds a scope for the objects of the frame. -/
def Builds (schema : Schema) (selections : List Selection) (frame : Frame) (scope : Expectation) : Prop :=
  ∃ key, (walkSet schema selections frame (.holding key frame.values)).outcome = .ok scope

variable {schema : Schema}

theorem Reaches.trans {top selections inner : List Selection} {start frame below : Frame}
    (h : Reaches schema top start selections frame) (h' : Reaches schema selections frame inner below) :
    Reaches schema top start inner below := by
  induction h' with
  | here => exact h
  | field _ looks nonempty ih => exact .field ih looks nonempty

/-- A walk reaches the set where it starts, or it reaches a set from one of the fields that it meets there. -/
theorem Reaches.head {top selections : List Selection} {start frame : Frame}
    (h : Reaches schema top start selections frame) : (selections = top ∧ frame = start) ∨
      ∃ narrowed m definition, LooksAt schema top start narrowed m definition ∧ m.selections ≠ [] ∧
        Reaches schema m.selections (narrowed.below schema m.field.key definition) selections frame := by
  induction h with
  | here => exact .inl ⟨rfl, rfl⟩
  | @field selections frame narrowed m definition _ looks nonempty ih =>
    rcases ih with ⟨rfl, rfl⟩ | ⟨narrowed', m', definition', looks', nonempty', hr⟩
    · exact .inr ⟨narrowed, m, definition, looks, nonempty, .here⟩
    · exact .inr ⟨narrowed', m', definition', looks', nonempty', .field hr looks nonempty⟩

/-! ## Fields -/

section

variable {selections : List Selection} {frame narrowed : Frame} {m : Met} {definition : OutputField}
  {scope e e' : Expectation}

theorem LooksAt.mem_metIn (h : LooksAt schema selections frame narrowed m definition)
    (hstop : ∀ cause, Step.stop cause ∉ setSteps schema [] selections frame) : m ∈ metIn [] selections :=
  (mem_metIn_iff hstop).2 ⟨narrowed, h.step⟩

/-- A walk that is not cut off goes on below a field with selections of its own. -/
theorem LooksAt.builds (h : LooksAt schema selections frame narrowed m definition) (hne : m.selections ≠ [])
    (hw : (walkSet schema selections frame e).outcome = .ok e') :
    ∃ child, (walkBelow schema narrowed m.field definition m.selections).outcome = .ok child := by
  rw [walkSet_eq_run schema []] at hw
  obtain ⟨change, hc⟩ := change_of_run hw _ h.step
  obtain ⟨definition', hd, ⟨hnil, -⟩ | ⟨-, child, hchild, -⟩⟩ := change_field hc
  · exact absurd hnil hne
  · rw [h.known] at hd
    cases hd
    exact ⟨child, hchild⟩

/-- The fields that a walk looks at are known, unless it is cut off. -/
theorem exists_looksAt (hw : (walkSet schema selections frame e).outcome = .ok e') (hm : m ∈ metIn [] selections) :
    ∃ narrowed definition, LooksAt schema selections frame narrowed m definition := by
  rw [walkSet_eq_run schema []] at hw
  obtain ⟨narrowed, hstep⟩ := (mem_metIn_iff (not_stop_mem hw)).1 hm
  obtain ⟨change, hc⟩ := change_of_run hw _ hstep
  obtain ⟨definition, hd, -⟩ := change_field hc
  exact ⟨narrowed, definition, hstep, hd⟩

/-- The set below a field is smaller than the set that the field is met in. -/
theorem LooksAt.sizeOf_lt (h : LooksAt schema selections frame narrowed m definition)
    (hw : (walkSet schema selections frame e).outcome = .ok e') : sizeOf m.selections < sizeOf selections := by
  rw [walkSet_eq_run schema []] at hw
  exact sizeOf_lt_of_mem_metIn (h.mem_metIn (not_stop_mem hw))

end

/-! ## Mismatches -/

/-- **The mismatches of a walk are those found where it looks at a field in a set that it reaches.** -/
theorem errors_walkSet_eq_nil {top : List Selection} {start : Frame} {e e' : Expectation}
    (h : (walkSet schema top start e).outcome = .ok e') :
    (walkSet schema top start e).errors = [] ↔
      ∀ selections frame, Reaches schema top start selections frame → ∀ narrowed m definition,
        LooksAt schema selections frame narrowed m definition →
          (checkAll schema narrowed m.field.key definition.type).errors = [] := by
  have herrors : (walkSet schema top start e).errors = [] ↔
      ∀ step ∈ setSteps schema [] top start, step.errors schema = [] := by
    have h' := h
    rw [walkSet_eq_run schema []] at h' ⊢
    rw [errors_run h', List.flatMap_eq_nil_iff]
  rw [herrors]
  constructor
  · intro hall selections frame hr narrowed m definition hl
    rcases hr.head with ⟨rfl, rfl⟩ | ⟨narrowed', m', definition', hl', hne, hr'⟩
    · have hstep := hall _ hl.step
      rw [Step.errors, hl.known] at hstep
      exact (List.append_eq_nil_iff.1 hstep).1
    · have hstep := hall _ hl'.step
      have hempty : m'.selections.isEmpty = false := by simpa using hne
      rw [Step.errors, hl'.known] at hstep
      simp only [hempty, Bool.false_eq_true, ↓reduceIte, List.append_eq_nil_iff] at hstep
      obtain ⟨child, hchild⟩ := hl'.builds hne h
      have hlt := hl'.sizeOf_lt h
      exact (errors_walkSet_eq_nil hchild).1 hstep.2 selections frame hr' narrowed m definition hl
  · intro hall step hs
    cases step with
    | stop cause => rfl
    | set conditions narrowed inner => rfl
    | field conditions narrowed f inner =>
      rw [Step.errors]
      cases hd : schema.fieldOf? (some narrowed.type) f.name with
      | none => rfl
      | some definition =>
        have hl : LooksAt schema top start narrowed ⟨conditions, f, inner⟩ definition := ⟨hs, hd⟩
        have hhere : (checkAll schema narrowed f.key definition.type).errors = [] :=
          hall top start .here narrowed ⟨conditions, f, inner⟩ definition hl
        simp only [hhere, List.nil_append]
        by_cases hne : inner = []
        · simp [hne]
        · have hempty : inner.isEmpty = false := by simpa using hne
          obtain ⟨child, hchild⟩ := hl.builds hne h
          have hlt := hl.sizeOf_lt h
          simp only [hempty, Bool.false_eq_true, ↓reduceIte]
          refine (errors_walkSet_eq_nil hchild).2 ?_
          intro selections frame hr narrowed' m definition' hl'
          exact hall selections frame (.trans (.field .here hl hne) hr) narrowed' m definition' hl'
termination_by sizeOf top

/-! ## Scopes -/

/-- The fields with selections of their own for which a step adds a scope. -/
def Step.Adds (schema : Schema) (child : Expectation) : Step → Prop
  | field _ frame f selections => selections ≠ [] ∧ ∃ definition,
      schema.fieldOf? (some frame.type) f.name = some definition ∧
        (walkBelow schema frame f definition selections).outcome = .ok child
  | _ => False

theorem mem_children_run {steps : List Step} {e e' child : Expectation} (h : (run schema steps e).outcome = .ok e') :
    child ∈ e'.children ↔ child ∈ e.children ∨ ∃ step ∈ steps, step.Adds schema child := by
  refine run_iff (P := (child ∈ ·.children)) (Q := Step.Adds schema child) (fun step _ change e hc => ?_) h
  cases step with
  | stop cause => cases hc
  | set conditions frame selections =>
    cases hc
    simp [Step.Adds, withTypenameKey]
  | field conditions frame f selections =>
    obtain ⟨d, hd, ⟨rfl, rfl⟩ | ⟨hne, child', hw, rfl⟩⟩ := change_field hc
    · simp [Step.Adds, record_rest.2.2.1]
    · simp [Step.Adds, addChild, record_rest.2.2.1, hne, hd, hw, eq_comm]

namespace Builds

variable {selections : List Selection} {frame narrowed : Frame} {m : Met} {definition : OutputField}
  {scope child : Expectation}

theorem outcome (h : Builds schema selections frame scope) :
    ∃ e, (walkSet schema selections frame e).outcome = .ok scope := ⟨_, h.choose_spec⟩

theorem not_stop (h : Builds schema selections frame scope) (cause : Abort) :
    Step.stop cause ∉ setSteps schema [] selections frame := by
  obtain ⟨e, he⟩ := h.outcome
  rw [walkSet_eq_run schema []] at he
  exact not_stop_mem he cause

/-- A scope has a child for each field with selections of its own. -/
theorem exists_child (h : Builds schema selections frame scope)
    (hl : LooksAt schema selections frame narrowed m definition) (hne : m.selections ≠ []) :
    ∃ child ∈ scope.children, Builds schema m.selections (narrowed.below schema m.field.key definition) child := by
  obtain ⟨key, he⟩ := h
  obtain ⟨child, hc⟩ := hl.builds hne he
  refine ⟨child, ?_, some m.field.key, hc⟩
  rw [walkSet_eq_run schema []] at he
  exact (mem_children_run he).2 (.inr ⟨_, hl.step, hne, definition, hl.known, hc⟩)

/-- Every child of a scope is that of a field with selections of its own. -/
theorem of_mem_children (h : Builds schema selections frame scope) (hc : child ∈ scope.children) :
    ∃ narrowed m definition, LooksAt schema selections frame narrowed m definition ∧ m.selections ≠ [] ∧
      Builds schema m.selections (narrowed.below schema m.field.key definition) child := by
  obtain ⟨key, he⟩ := h
  rw [walkSet_eq_run schema []] at he
  rcases (mem_children_run he).1 hc with hc | ⟨step, hs, hadds⟩
  · rw [(isFresh_holding key frame.values).children] at hc
    cases hc
  · cases step with
    | stop cause => exact hadds.elim
    | set conditions narrowed inner => exact hadds.elim
    | field conditions narrowed f inner =>
      obtain ⟨hne, definition, hd, hw⟩ := hadds
      exact ⟨narrowed, ⟨conditions, f, inner⟩, definition, ⟨hs, hd⟩, hne, some f.key, hw⟩

end Builds

theorem mem_walkAll {scope : Expectation} : ∀ {trees : List Expectation},
    scope ∈ walkAll trees ↔ ∃ tree ∈ trees, scope ∈ tree.walk
  | [] => by simp [walkAll]
  | tree :: rest => by
    rw [walkAll, List.mem_append, mem_walkAll, List.exists_mem_cons_iff]

/-- The scopes of a tree are its own and those of its children. -/
theorem mem_walk {tree scope : Expectation} :
    scope ∈ tree.walk ↔ scope = tree ∨ ∃ child ∈ tree.children, scope ∈ child.walk := by
  cases tree
  rw [walk, List.mem_cons, mem_walkAll]

theorem sizeOf_lt_of_mem_children {tree child : Expectation} (h : child ∈ tree.children) :
    sizeOf child < sizeOf tree := by
  obtain ⟨key, common, byType, typenameKey, children, objects⟩ := tree
  have := List.sizeOf_lt_of_mem (show child ∈ children from h)
  simp only [mk.sizeOf_spec]
  omega

theorem mem_walk_of_mem_children {tree scope child : Expectation} (h : scope ∈ tree.walk)
    (hc : child ∈ scope.children) : child ∈ tree.walk := by
  rcases mem_walk.1 h with rfl | ⟨first, hf, h⟩
  · exact mem_walk.2 (.inr ⟨child, hc, mem_walk.2 (.inl rfl)⟩)
  · have := sizeOf_lt_of_mem_children hf
    exact mem_walk.2 (.inr ⟨first, hf, mem_walk_of_mem_children h hc⟩)
termination_by sizeOf tree

/-- **Every scope of a tree is that of a set that the walk reaches.** -/
theorem exists_reaches_of_mem_walk {top : List Selection} {start : Frame} {tree scope : Expectation}
    (hb : Builds schema top start tree) (hm : scope ∈ tree.walk) :
    ∃ selections frame, Reaches schema top start selections frame ∧ Builds schema selections frame scope := by
  rcases mem_walk.1 hm with rfl | ⟨child, hc, hm⟩
  · exact ⟨top, start, .here, hb⟩
  · obtain ⟨narrowed, m, definition, hl, hne, hchild⟩ := hb.of_mem_children hc
    have := sizeOf_lt_of_mem_children hc
    obtain ⟨selections, frame, hr, hscope⟩ := exists_reaches_of_mem_walk hchild hm
    exact ⟨selections, frame, .trans (.field .here hl hne) hr, hscope⟩
termination_by sizeOf tree

/-- **Every set that a walk reaches has a scope in the tree.** -/
theorem exists_mem_walk_of_reaches {top selections : List Selection} {start frame : Frame} {tree : Expectation}
    (hb : Builds schema top start tree) (hr : Reaches schema top start selections frame) :
    ∃ scope ∈ tree.walk, Builds schema selections frame scope := by
  induction hr with
  | here => exact ⟨tree, mem_walk.2 (.inl rfl), hb⟩
  | field _ looks nonempty ih =>
    obtain ⟨scope, hs, hscope⟩ := ih
    obtain ⟨child, hc, hchild⟩ := hscope.exists_child looks nonempty
    exact ⟨child, mem_walk_of_mem_children hs hc, hchild⟩

end FixtureCheck.Fixture
