import FixtureCheck.Proofs.Query.Cycles
import FixtureCheck.Proofs.Walk.Mirror

/-!
# Aborts of accepted queries

A walk through typed selections can be cut off for one reason alone: objects of an abstract type do not name their types
though there is more than one fragment (`missingTypename_of_walkSet`). So a check of an accepted query inlines it, and
is cut off for that reason or not at all (`accepted_query_aborts_for_typename`).
-/

namespace FixtureCheck.Fixture

open GraphQL (Schema Document Selection Operation AreTyped)

variable {schema : Schema}

/-- A result of a walk in two parts is cut off in the first or in the second. -/
theorem bind_eq_error {α β : Type} {x : Except Abort α} {f : α → Except Abort β} {cause : Abort}
    (h : x.bind f = .error cause) : x = .error cause ∨ ∃ a, x = .ok a ∧ f a = .error cause := by
  cases x with
  | error c =>
    cases h
    exact .inl rfl
  | ok a => exact .inr ⟨a, rfl, h⟩

/-- Is a walk cut off because objects do not name their types? -/
def IsMissingTypename (cause : Abort) : Prop := ∃ type, cause = .missingTypename type

theorem type_withTypenameKey (frame : Frame) (key : Option String) : (frame.withTypenameKey key).type = frame.type := by
  cases key <;> rfl

theorem type_enter (schema : Schema) (frame : Frame) (condition : Option String) :
    (frame.enter schema condition).type = condition.getD frame.type := by
  cases condition <;> rfl

mutual

/-- **A walk through a typed selection set is cut off for want of type names only.** -/
theorem missingTypename_of_walkSet {selections : List Selection} {frame : Frame} {e : Expectation} {cause : Abort}
    (ht : AreTyped schema frame.type selections) (h : (walkSet schema selections frame e).outcome = .error cause) :
    IsMissingTypename cause :=
  match selections with
  | [] => by
    rw [walkSet, walkSelections] at h
    cases h
  | first :: rest => by
    rw [AreTyped] at ht
    rw [walkSet] at h
    split at h
    · cases h
      exact ⟨frame.type, rfl⟩
    · simp only [Checking.bind_def, Checking.outcome_andThen] at h
      have htype := type_withTypenameKey frame (typenameKey? (first :: rest))
      rcases bind_eq_error h with h | ⟨e', -, h⟩
      · exact missingTypename_of_walkSelection (htype ▸ ht.1) h
      · exact missingTypename_of_walkSelections (htype ▸ ht.2) h

theorem missingTypename_of_walkSelections {selections : List Selection} {frame : Frame} {e : Expectation}
    {cause : Abort} (ht : AreTyped schema frame.type selections)
    (h : (walkSelections schema selections frame e).outcome = .error cause) : IsMissingTypename cause :=
  match selections with
  | [] => by
    rw [walkSelections] at h
    cases h
  | first :: rest => by
    rw [AreTyped] at ht
    rw [walkSelections] at h
    simp only [Checking.bind_def, Checking.outcome_andThen] at h
    rcases bind_eq_error h with h | ⟨e', -, h⟩
    · exact missingTypename_of_walkSelection ht.1 h
    · exact missingTypename_of_walkSelections ht.2 h

theorem missingTypename_of_walkSelection {selection : Selection} {frame : Frame} {e : Expectation} {cause : Abort}
    (ht : selection.IsTyped schema frame.type) (h : (walkSelection schema selection frame e).outcome = .error cause) :
    IsMissingTypename cause :=
  match selection with
  | .field f selections => by
    rw [Selection.IsTyped] at ht
    obtain ⟨definition, hd, hcase⟩ := ht
    rw [walkSelection_field, walkField, hd] at h
    simp only [Checking.outcome_andThen, Checking.report, Except.bind] at h
    rcases hcase with ⟨-, rfl⟩ | ⟨-, hne, ht⟩
    · cases h
    · have hempty : selections.isEmpty = false := by simpa using hne
      simp only [hempty, Bool.false_eq_true, ↓reduceIte, Checking.outcome_andThen] at h
      rcases bind_eq_error h with h | ⟨child, -, h⟩
      · -- the frame below is on the type at the core of the field's type
        have hbelow : AreTyped schema (frame.below schema f.key definition).type selections := ht
        exact missingTypename_of_walkSet hbelow h
      · cases h
  | .spread .. => by
    rw [walkSelection] at h
    cases h
  | .inline condition _ selections => by
    rw [Selection.IsTyped] at ht
    rw [walkSelection] at h
    cases hc : condition.filter fun name => (schema.type? name).isNone with
    | some name =>
      obtain ⟨hmem, hnone⟩ := Option.filter_eq_some_iff.1 hc
      have hknown := Schema.type?_of_isComposite (ht.1 name hmem)
      simp [Option.isSome_iff_ne_none] at hknown hnone
      exact absurd hnone hknown
    | none =>
      rw [hc] at h
      rw [← type_enter schema frame condition] at ht
      exact missingTypename_of_walkSet ht.2 h

end

/-! ## Checks of accepted documents -/

theorem mem_of_selectOperation {document : Document} {name : Option String} {operation : Operation}
    (h : selectOperation document name = .ok operation) : .operation operation ∈ document := by
  have hmem : operation ∈ GraphQL.operations document := by
    unfold selectOperation at h
    cases ho : operation? document name with
    | none =>
      rw [ho] at h
      split at h <;> first | contradiction | skip
      split at h <;> contradiction
    | some o =>
      rw [ho] at h
      cases h
      unfold operation? at ho
      cases name with
      | some name => exact List.mem_of_find?_eq_some ho
      | none =>
        simp only at ho
        split at ho
        · rename_i hall
          cases ho
          rw [hall]
          exact List.mem_singleton_self _
        · cases ho
  rw [GraphQL.operations, List.mem_filterMap] at hmem
  obtain ⟨d, hd, hsome⟩ := hmem
  cases d <;> simp_all

theorem root?_of_rootType {operation : Operation} {root : String} (h : rootType schema operation = .ok root) :
    schema.root? operation.kind = some root := by
  unfold rootType at h
  cases hk : operation.kind with
  | subscription => simp [hk] at h
  | query =>
    simp only [hk] at h
    cases hr : schema.root? .query with
    | none => simp [hr] at h
    | some r =>
      rw [hr] at h
      cases h
      rfl
  | mutation =>
    simp only [hk] at h
    cases hr : schema.root? .mutation with
    | none => simp [hr] at h
    | some r =>
      rw [hr] at h
      cases h
      rfl

/-- The choice of an operation does not inline anything. -/
theorem selectOperation_ne_inlining {document : Document} {name : Option String} {cause : GraphQL.InliningError} :
    selectOperation document name ≠ .error (.inlining cause) := by
  unfold selectOperation
  cases operation? document name with
  | some o => simp
  | none =>
    simp only
    split <;> simp

theorem rootType_ne_inlining {operation : Operation} {cause : GraphQL.InliningError} :
    rootType schema operation ≠ .error (.inlining cause) := by
  intro h
  unfold rootType at h
  cases hk : operation.kind with
  | subscription => simp [hk] at h
  | query => cases hr : schema.root? .query <;> simp [hk, hr] at h
  | mutation => cases hr : schema.root? .mutation <;> simp [hk, hr] at h

/-- The operation that fixtures are compared with is typed if the document is accepted. -/
theorem Compares.areTyped {document : Document} (ha : GraphQL.Accepts schema document) (hw : schema.IsWellFormed)
    {name : Option String} {operation : Operation} {root : String}
    (h : Compares schema document name operation root) : AreTyped schema root operation.selections := by
  obtain ⟨⟨inlined, hi, ho⟩, hr⟩ := h
  exact ha.areTyped_inlined hw hi (mem_of_selectOperation ho) (root?_of_rootType hr)

/-- **An accepted query makes no check fail on its account, except for ambiguity.** No fragment reaches itself, all
spreads can be inlined, and a walk that is cut off is so because objects do not name their types. -/
theorem accepted_query_aborts_for_typename {document : Document} (hw : schema.IsWellFormed)
    (h : GraphQL.validate schema document = .ok []) :
    WellFounded (GraphQL.SpreadIn document) ∧ (∃ inlined, GraphQL.inline document = .ok inlined) ∧
      ∀ (fixture : Json) (name : Option String),
        (∀ cause, check schema document fixture name ≠ .error (.inlining cause)) ∧
        (∀ operation root cause, Compares schema document name operation root →
          (walkOperation schema root operation fixture).outcome = .error cause →
            ∃ type, cause = .missingTypename type) ∧
        ∀ result, check schema document fixture name = .ok result → result.aborted = true →
          ∃ type, result.errors.getLast? = some (Abort.missingTypename type).message := by
  have ha := GraphQL.accepts_of_validate h
  obtain ⟨inlined, hi⟩ := ha.exists_inline
  refine ⟨ha.wellFounded_spreadIn, ⟨inlined, hi⟩, fun fixture name => ?_⟩
  have haborts : ∀ operation root cause, Compares schema document name operation root →
      (walkOperation schema root operation fixture).outcome = .error cause → IsMissingTypename cause := by
    intro operation root cause hc hwalk
    rw [outcome_walkOperation] at hwalk
    have htyped : AreTyped schema (Frame.forField schema (if kindOf fixture = .object then [⟨[], fixture⟩] else [])
        root none).type operation.selections := hc.areTyped ha hw
    exact missingTypename_of_walkSet htyped hwalk
  refine ⟨fun cause hcheck => ?_, haborts, fun result hcheck haborted => ?_⟩
  · unfold check at hcheck
    rw [hi] at hcheck
    simp only [Except.mapError, bind, Except.bind] at hcheck
    cases hs : selectOperation inlined name with
    | error cause' =>
      rw [hs] at hcheck
      cases hcheck
      exact selectOperation_ne_inlining hs
    | ok operation =>
      rw [hs] at hcheck
      simp only at hcheck
      cases hr : rootType schema operation with
      | error cause' =>
        rw [hr] at hcheck
        cases hcheck
        exact rootType_ne_inlining hr
      | ok root =>
        rw [hr] at hcheck
        cases hcheck
  · obtain ⟨operation, root, hc, rfl⟩ := check_eq_ok_iff.1 hcheck
    cases hwalk : (walkOperation schema root operation fixture).outcome with
    | ok e =>
      rw [ofWalk_ok hwalk] at haborted
      cases haborted
    | error cause =>
      obtain ⟨type, rfl⟩ := haborts operation root cause hc hwalk
      exact ⟨type, (ofWalk_error hwalk).2⟩

theorem petSchema_isWellFormed : petSchema.IsWellFormed where
  named := by decide +kernel
  distinct := by decide +kernel
  output := by decide +kernel
  members := by decide +kernel
  text := rfl
  aboutSchema := by decide +kernel
  aboutTypes := by decide +kernel

theorem validate_petQuery : GraphQL.validate petSchema petQuery = .ok [] :=
  eq_ok_of_toOption (by decide +kernel)

/-- The query for pets cannot fail on its own account, whatever pets there are. -/
theorem petQuery_aborts_for_typename : petSchema.IsWellFormed ∧ GraphQL.validate petSchema petQuery = .ok [] ∧
    WellFounded (GraphQL.SpreadIn petQuery) ∧
    ∀ fixture result, check petSchema petQuery fixture none = .ok result → result.aborted = true →
      ∃ type, result.errors.getLast? = some (Abort.missingTypename type).message := by
  obtain ⟨hwf, -, hall⟩ := accepted_query_aborts_for_typename petSchema_isWellFormed validate_petQuery
  exact ⟨petSchema_isWellFormed, validate_petQuery, hwf, fun fixture => (hall fixture none).2.2⟩

end FixtureCheck.Fixture
