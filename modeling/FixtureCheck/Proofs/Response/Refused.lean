import FixtureCheck.Proofs.Response.Replaced
import FixtureCheck.Proofs.Walk.Objects

/-!
# Checks that are refused

A document without cycles of fragments is compared with any fixture unless one of two things is wrong with it. A spread
that an operation leads to may be of no fragment; then it cannot be inlined. Or there may be no operation to compare
with. `check_cases` tells the three ways that a check can go, and `check_refused_iff` when it goes which way.
-/

namespace FixtureCheck.Fixture

open GraphQL (Schema Document Operation SpreadsUnknown HasNoCycle)

variable {schema : Schema} {document : Document} {name : Option String} {fixture : Json}

/-- Does an error tell that there is no operation to compare fixtures with? -/
def CheckError.IsAboutOperation : CheckError → Prop
  | .inlining _ => False
  | _ => True

/-- Does a document leave open which operation is meant: by a name that none has, or without a name? -/
def LeavesOpen (document : Document) : Option String → Prop
  | none => (GraphQL.operations document).length ≠ 1
  | some name => ∀ o ∈ GraphQL.operations document, o.name ≠ some name

/-- **Is there no operation to compare fixtures with**: is it left open, or a subscription, or one without a root type
in the schema? -/
def LacksOperation (schema : Schema) (document : Document) (name : Option String) : Prop :=
  LeavesOpen document name ∨
    ∃ o, operation? document name = some o ∧ (o.kind = .subscription ∨ schema.root? o.kind = none)

/-! ## Operations -/

theorem operation?_eq_none_iff : operation? document name = none ↔ LeavesOpen document name := by
  unfold operation?
  cases name with
  | some name => simp [LeavesOpen]
  | none =>
    simp only [LeavesOpen]
    split
    · rename_i o hone
      simp [hone]
    · rename_i hnot
      simpa [List.length_eq_one_iff] using hnot

/-- An operation starts from a root type unless it is a subscription or the schema has none for it. -/
theorem exists_rootType_iff {o : Operation} :
    (∃ root, rootType schema o = .ok root) ↔ ¬ (o.kind = .subscription ∨ schema.root? o.kind = none) := by
  unfold rootType
  cases o.kind with
  | subscription => simp
  | query => cases hr : schema.root? .query <;> simp [hr]
  | mutation => cases hr : schema.root? .mutation <;> simp [hr]

theorem isAboutOperation_of_selectOperation {cause : CheckError} (h : selectOperation document name = .error cause) :
    cause.IsAboutOperation := by
  cases cause with
  | inlining c => exact absurd h selectOperation_ne_inlining
  | unknownOperation n => trivial
  | noSingleOperation => trivial
  | subscription => trivial
  | noRootType k => trivial

theorem isAboutOperation_of_rootType {o : Operation} {cause : CheckError} (h : rootType schema o = .error cause) :
    cause.IsAboutOperation := by
  cases cause with
  | inlining c => exact absurd h rootType_ne_inlining
  | unknownOperation n => trivial
  | noSingleOperation => trivial
  | subscription => trivial
  | noRootType k => trivial

/-- The operation that is found is selected. -/
theorem selectOperation_eq_ok_iff {o : Operation} :
    selectOperation document name = .ok o ↔ operation? document name = some o := by
  unfold selectOperation
  cases operation? document name with
  | some p => simp
  | none =>
    simp only
    split <;> simp

theorem operation?_of_error {cause : CheckError} (h : selectOperation document name = .error cause) :
    operation? document name = none := by
  refine Option.eq_none_iff_forall_ne_some.2 fun o ho => ?_
  rw [selectOperation_eq_ok_iff.2 ho] at h
  cases h

theorem lacksOperation_of_error {cause : CheckError} (h : selectOperation document name = .error cause) :
    LacksOperation schema document name := .inl (operation?_eq_none_iff.1 (operation?_of_error h))

theorem lacksOperation_iff_of_ok {o : Operation} (h : selectOperation document name = .ok o) :
    LacksOperation schema document name ↔ ¬ ∃ root, rootType schema o = .ok root := by
  have ho := selectOperation_eq_ok_iff.1 h
  rw [exists_rootType_iff, not_not, LacksOperation, ← operation?_eq_none_iff]
  simp [ho]

/-- Inlining does not change whether there is an operation to compare with. -/
theorem lacksOperation_inlined {inlined : Document} (hi : GraphQL.inline document = .ok inlined) :
    LacksOperation schema inlined name ↔ LacksOperation schema document name := by
  rcases selectOperation_of_map (GraphQL.map_operations_of_inline hi) name with
    ⟨o, o', ho, ho', hoo⟩ | ⟨cause, h, h'⟩
  · have hroot : rootType schema o = rootType schema o' := by
      rw [rootType, rootType, kind_eq_of_withoutSelections hoo]
    rw [lacksOperation_iff_of_ok ho, lacksOperation_iff_of_ok ho', hroot]
  · exact iff_of_true (lacksOperation_of_error h) (lacksOperation_of_error h')

/-! ## Checks -/

/-- **A check of a document without cycles goes one of three ways**: a fragment is missing, or an operation is, or there
is a result. -/
theorem check_cases (hno : HasNoCycle document) :
    (SpreadsUnknown document ∧ ∃ f, check schema document fixture name = .error (.inlining (.unknownFragment f))) ∨
    ¬ SpreadsUnknown document ∧
      ((LacksOperation schema document name ∧ ∃ cause : CheckError, cause.IsAboutOperation ∧
          check schema document fixture name = .error cause) ∨
        ¬ LacksOperation schema document name ∧ ∃ result, check schema document fixture name = .ok result) := by
  unfold check
  cases hi : GraphQL.inline document with
  | error cause =>
    obtain ⟨hunknown, f, rfl⟩ := GraphQL.unknown_of_inline hno hi
    exact .inl ⟨hunknown, f, rfl⟩
  | ok inlined =>
    refine .inr ⟨(GraphQL.exists_inline_iff hno).1 ⟨inlined, hi⟩, ?_⟩
    rw [← lacksOperation_inlined hi]
    simp only [Except.mapError, ok_bind]
    cases hs : selectOperation inlined name with
    | error cause =>
      exact .inl ⟨lacksOperation_of_error hs, cause, isAboutOperation_of_selectOperation hs, rfl⟩
    | ok o =>
      rw [lacksOperation_iff_of_ok hs]
      simp only [ok_bind]
      cases hr : rootType schema o with
      | error cause => exact .inl ⟨by simp, cause, isAboutOperation_of_rootType hr, rfl⟩
      | ok root => exact .inr ⟨by simp, _, rfl⟩

/-- **When a check is refused.** A document without cycles is not compared with a fixture if an operation leads to a
missing fragment, nor if there is no operation to compare with, and otherwise it is. A walk then comes to objects only,
and finds no field of a type that it cannot tell what to do with. -/
theorem check_refused_iff (hw : schema.IsWellFormed) (hno : HasNoCycle document) (name : Option String)
    (fixture : Json) :
    ((∃ f, check schema document fixture name = .error (.inlining (.unknownFragment f))) ↔ SpreadsUnknown document) ∧
    ((∃ cause : CheckError, cause.IsAboutOperation ∧ check schema document fixture name = .error cause) ↔
      ¬ SpreadsUnknown document ∧ LacksOperation schema document name) ∧
    ((∃ result, check schema document fixture name = .ok result) ↔
      ¬ SpreadsUnknown document ∧ ¬ LacksOperation schema document name) ∧
    ∀ operation root, Compares schema document name operation root →
      (∀ frame, IsVisited schema operation.selections (startFrame schema root fixture) frame → frame.HoldsObjects) ∧
      ∀ m ∈ (walkOperation schema root operation fixture).errors, ¬ m.IsUnexpected := by
  have hstart : ∀ root, (startFrame schema root fixture).HoldsObjects := by
    intro root v hv
    have hv : v ∈ rootValues fixture := hv
    unfold rootValues at hv
    split at hv
    · rw [List.mem_singleton.1 hv]
      assumption
    · cases hv
  have hwalk : ∀ operation root, Compares schema document name operation root →
      (∀ frame, IsVisited schema operation.selections (startFrame schema root fixture) frame → frame.HoldsObjects) ∧
      ∀ m ∈ (walkOperation schema root operation fixture).errors, ¬ m.IsUnexpected :=
    fun operation root _ => ⟨fun frame => holdsObjects_of_isVisited hw (hstart root),
      fun m => not_unexpected_of_mem_walkOperation hw⟩
  rcases @check_cases schema document name fixture hno with
    ⟨hu, f, h⟩ | ⟨hu, ⟨hl, cause, hc, h⟩ | ⟨hl, result, h⟩⟩
  · refine ⟨iff_of_true ⟨f, h⟩ hu, iff_of_false ?_ fun hn => hn.1 hu, iff_of_false ?_ fun hn => hn.1 hu, hwalk⟩
    · rintro ⟨cause, hc, h'⟩
      rw [h] at h'
      cases h'
      exact hc
    · rintro ⟨result, h'⟩
      rw [h] at h'
      cases h'
  · refine ⟨iff_of_false ?_ hu, iff_of_true ⟨cause, hc, h⟩ ⟨hu, hl⟩, iff_of_false ?_ fun hn => hn.2 hl, hwalk⟩
    · rintro ⟨f, h'⟩
      rw [h] at h'
      cases h'
      exact hc
    · rintro ⟨result, h'⟩
      rw [h] at h'
      cases h'
  · refine ⟨iff_of_false ?_ hu, iff_of_false ?_ fun hn => hl hn.2, iff_of_true ⟨result, h⟩ ⟨hu, hl⟩, hwalk⟩
    · rintro ⟨f, h'⟩
      rw [h] at h'
      cases h'
    · rintro ⟨cause, -, h'⟩
      rw [h] at h'
      cases h'

/-! ## A fragment that is missing -/

/-- A query for pets as a fragment describes them, which spreads one that is not there. -/
def lostQuery : Document := [
  .operation ⟨none, .query, none, [], [], [plain "pets" [.spread "Described" []]]⟩,
  .fragment ⟨none, "Described", "Pet", [], [plain "__typename" [], .spread "Lost" []]⟩]

/-- The query is compared with no fixture. -/
theorem lostQuery_refused : petSchema.IsWellFormed ∧ HasNoCycle lostQuery ∧ SpreadsUnknown lostQuery ∧
    ∃ f, check petSchema lostQuery pets none = .error (.inlining (.unknownFragment f)) := by
  have hno : HasNoCycle lostQuery :=
    GraphQL.hasNoCycle_of_rank (fun name => if name = "Described" then 1 else 0) (by decide)
  have hspread : GraphQL.SpreadIn lostQuery "Lost" "Described" := ⟨_, rfl, by decide⟩
  have hunknown : SpreadsUnknown lostQuery :=
    ⟨_, List.mem_singleton_self _, "Lost", ⟨"Described", by decide, .single hspread⟩, by decide⟩
  exact ⟨petSchema_isWellFormed, hno, hunknown, (check_refused_iff petSchema_isWellFormed hno none pets).1.2 hunknown⟩

end FixtureCheck.Fixture
