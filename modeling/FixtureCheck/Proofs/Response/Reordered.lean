import FixtureCheck.Proofs.Query.Aborts
import FixtureCheck.Proofs.Response.Order
import FixtureCheck.Proofs.Walk.Within

/-!
# Checks with selections in another order

Walks through selections in another order build trees that cover each other. Such trees leave the same keys over, up to
their order, if objects can be told by their places (`perm_extraFields_of_covers`). So if all `__typename` fields of a
document have one key, the order of the selections inside its selection sets does not matter to the verdict about a
fixture (`check_reordered`).
-/

namespace FixtureCheck.Fixture

open GraphQL (Schema Document Field Selection Operation Fragment Reordered DocumentReordered rel_find?_of_forall₂
  InlinesWithin inlineSelections_eq_ok_iff exists_operation_of_inline reordered_inline)
open Expectation

/-! ## Keys that are left over -/

section

variable {tree tree' : Expectation} {v : Located}

/-- The objects of all scopes of a tree. -/
def allObjects (tree : Expectation) : List Located := tree.walk.flatMap (·.objects)

theorem mem_allObjects_of_covers (h : tree'.Covers tree) (hv : v ∈ allObjects tree) : v ∈ allObjects tree' := by
  obtain ⟨scope, hs, hv⟩ := List.mem_flatMap.1 hv
  obtain ⟨scope', hs', hm⟩ := h scope hs
  exact List.mem_flatMap.2 ⟨scope', hs', hm.objects ▸ hv⟩

theorem isExpected_of_covers (h : tree'.Covers tree) {k : String} (hk : isExpected tree.walk v k = true) :
    isExpected tree'.walk v k = true := by
  obtain ⟨scope, hs, hboth⟩ := List.any_eq_true.1 hk
  obtain ⟨hholds, happlies⟩ := Bool.and_eq_true_iff.1 hboth
  obtain ⟨scope', hs', hm⟩ := h scope hs
  refine List.any_eq_true.2 ⟨scope', hs', Bool.and_eq_true_iff.2 ⟨?_, ?_⟩⟩
  · rw [Expectation.holds, ← hm.objects]
    exact hholds
  · exact decide_eq_true ((hm.applicable v k).1 (of_decide_eq_true happlies))

/-- Where a place tells the object, the objects of a tree are listed once each. -/
theorem mem_distinctObjects (hplace : ∀ u ∈ allObjects tree, ∀ v ∈ allObjects tree, u.path = v.path → u = v) :
    v ∈ distinctObjects tree ↔ v ∈ allObjects tree := by
  rw [distinctObjects_eq]
  constructor
  · exact fun h => (mem_foldl_takeUp h).resolve_left List.not_mem_nil
  · intro h
    obtain ⟨u, hu, hp⟩ := exists_foldl_takeUp (.inr h : v ∈ ([] : List Located) ∨ v ∈ allObjects tree)
    have hmem : u ∈ allObjects tree := (mem_foldl_takeUp hu).resolve_left List.not_mem_nil
    rw [hplace u hmem v h hp] at hu
    exact hu

/-- **Trees that cover each other leave the same keys over**, up to their order. -/
theorem perm_extraFields_of_covers
    (hplace : ∀ u ∈ allObjects tree, ∀ v ∈ allObjects tree, u.path = v.path → u = v) (h : tree'.Covers tree)
    (h' : tree.Covers tree') : (extraFields tree).Perm (extraFields tree') := by
  have hobjects : ∀ v, v ∈ allObjects tree ↔ v ∈ allObjects tree' :=
    fun v => ⟨mem_allObjects_of_covers h, mem_allObjects_of_covers h'⟩
  have hplace' : ∀ u ∈ allObjects tree', ∀ v ∈ allObjects tree', u.path = v.path → u = v :=
    fun u hu v hv => hplace u ((hobjects u).2 hu) v ((hobjects v).2 hv)
  have hdistinct : (distinctObjects tree).Perm (distinctObjects tree') := by
    refine (List.perm_ext_iff_of_nodup (nodup_foldl_takeUp .nil) (nodup_foldl_takeUp .nil)).2 fun v => ?_
    exact (mem_distinctObjects hplace).trans ((hobjects v).trans (mem_distinctObjects hplace').symm)
  have hexpected : ∀ v k, isExpected tree.walk v k = isExpected tree'.walk v k := by
    intro v k
    rw [Bool.eq_iff_iff]
    exact ⟨isExpected_of_covers h, isExpected_of_covers h'⟩
  simp only [extraFields, hexpected]
  exact hdistinct.flatMap_right _

end

/-! ## Walks of operations -/

section

variable {schema : Schema} {root : String} {operation operation' : Operation} {fixture : Json} {tree : Expectation}

/-- The objects in the scopes of a walk stand in a fixture if the walk starts there. -/
theorem isIn_of_mem_allObjects {top : List Selection} {start : Frame} (hb : Builds schema top start tree)
    (hstart : ∀ u ∈ start.values, u.IsIn fixture) {v : Located} (hv : v ∈ allObjects tree) : v.IsIn fixture := by
  obtain ⟨scope, hs, hv⟩ := List.mem_flatMap.1 hv
  obtain ⟨selections, frame, hr, hscope⟩ := exists_reaches_of_mem_walk hb hs
  obtain ⟨u, hu, hwithin⟩ := hr.exists_within (hscope.object_of_mem hv).1
  exact hwithin.isIn (hstart u hu)

/-- The objects that a walk through a fixture starts with: the fixture, if it is an object. -/
def rootValues (fixture : Json) : List Located := if kindOf fixture = .object then [⟨[], fixture⟩] else []

theorem isIn_of_mem_rootValues {u : Located} (hu : u ∈ rootValues fixture) : u.IsIn fixture := by
  unfold rootValues at hu
  split at hu
  · rw [List.mem_singleton.1 hu]
    simp [Located.IsIn, Json.get?]
  · cases hu

/-- The frame in which a walk through a fixture of any kind starts. -/
def startFrame (schema : Schema) (root : String) (fixture : Json) : Frame :=
  .forField schema (rootValues fixture) root none

theorem walkOperation_eq : walkOperation schema root operation fixture =
    (Checking.report
      (if kindOf fixture = .object then [] else [.rootNotObject operation.kind (kindOf fixture)])).andThen
        fun _ => walkSet schema operation.selections (.forField schema (rootValues fixture) root none)
        (.holding none (rootValues fixture)) := rfl

/-- **Walks of operations with their selections in another order are both cut off or both not**; if they are not, they
report the same mismatches and leave the same keys over, up to their order. -/
theorem walkOperation_reordered {K : String} (hr : operation.Reordered operation')
    (hk : HasKey K operation.selections) (hw : (walkOperation schema root operation fixture).outcome = .ok tree) :
    ∃ tree', (walkOperation schema root operation' fixture).outcome = .ok tree' ∧
      (walkOperation schema root operation fixture).errors.Perm (walkOperation schema root operation' fixture).errors ∧
      (extraFields tree).Perm (extraFields tree') := by
  have hkind : operation'.kind = operation.kind := by rw [hr.1]
  have hu : (Frame.forField schema (rootValues fixture) root none).UsesKey K := fun key hkey => nomatch hkey
  rw [walkOperation_eq] at hw
  obtain ⟨tree', hw', herrors, hcovers, hcovers'⟩ := walkSet_reordered hr.2 hk hu (isFresh_holding ..) hw
  refine ⟨tree', ?_, ?_, ?_⟩
  · rw [walkOperation_eq]
    exact hw'
  · rw [walkOperation_eq, walkOperation_eq, Checking.errors_andThen (a := ()) rfl,
      Checking.errors_andThen (a := ()) rfl, hkind]
    exact herrors.append_left _
  · refine perm_extraFields_of_covers (fun u hu v hv hp => ?_) hcovers hcovers'
    have hin : ∀ {o : Located}, o ∈ allObjects tree → o.IsIn fixture :=
      isIn_of_mem_allObjects ⟨none, hw⟩ fun u hu => isIn_of_mem_rootValues hu
    exact Located.eq_of_path (hin hu) (hin hv) hp

end

/-! ## Documents -/

section

variable {schema : Schema} {document document' : Document} {K : String}

/-- All `__typename` fields of a document have the key `K`. -/
structure HasOneKey (K : String) (document : Document) : Prop where
  operations : ∀ o ∈ GraphQL.operations document, HasKey K o.selections
  fragments : ∀ f ∈ GraphQL.fragments document, HasKey K f.selections

/-- Inlining keeps the key of `__typename` fields. -/
theorem HasOneKey.of_inlinesWithin (hk : HasOneKey K document) {n : Nat} {selections inlined : List Selection}
    (hi : InlinesWithin document n selections inlined) (hs : HasKey K selections) : HasKey K inlined := by
  induction hi with
  | nil => exact hs
  | field _ _ ih ih' =>
    obtain ⟨hfirst, hrest⟩ := List.forall_mem_append.1 hs
    obtain ⟨hf, hinner⟩ := List.forall_mem_cons.1 hfirst
    exact List.forall_mem_append.2 ⟨List.forall_mem_cons.2 ⟨hf, ih hinner⟩, ih' hrest⟩
  | inline _ _ ih ih' =>
    obtain ⟨hinner, hrest⟩ := List.forall_mem_append.1 hs
    exact List.forall_mem_append.2 ⟨ih hinner, ih' hrest⟩
  | spread found _ _ ih ih' =>
    have hmem := List.mem_reverse.1 (List.mem_of_find?_eq_some found)
    exact List.forall_mem_append.2 ⟨ih (hk.fragments _ hmem), ih' (List.forall_mem_append.1 hs).2⟩

/-- The operation that is chosen has the key of the document. -/
theorem HasOneKey.of_selectOperation (hk : HasOneKey K document) {inlined : Document}
    (hi : GraphQL.inline document = .ok inlined) {name : Option String} {operation : Operation}
    (ho : selectOperation inlined name = .ok operation) : HasKey K operation.selections := by
  obtain ⟨o, hmem, -, hs⟩ := exists_operation_of_inline hi (mem_of_selectOperation ho)
  exact hk.of_inlinesWithin (inlineSelections_eq_ok_iff.1 hs) (hk.operations o (List.mem_filterMap.2 ⟨_, hmem, rfl⟩))

/-- The choice of an operation does not depend on the order of selections. -/
theorem selectOperation_reordered (h : DocumentReordered document document') (name : Option String) :
    (∃ o o', selectOperation document name = .ok o ∧ selectOperation document' name = .ok o' ∧ o.Reordered o') ∨
      ∃ cause, selectOperation document name = .error cause ∧ selectOperation document' name = .error cause := by
  have hrel : Option.Rel Operation.Reordered (operation? document name) (operation? document' name) := by
    unfold operation?
    cases name with
    | some name => exact rel_find?_of_forall₂ (fun o o' hoo => by rw [hoo.1]) h.operations
    | none =>
      have hall := h.operations
      generalize GraphQL.operations document = all, GraphQL.operations document' = all' at hall
      cases hall with
      | nil => exact .none
      | cons hoo hrest =>
        cases hrest with
        | nil => exact .some hoo
        | cons _ _ => exact .none
  unfold selectOperation
  generalize operation? document name = found, operation? document' name = found' at hrel
  cases hrel with
  | @some o o' hoo => exact .inl ⟨o, o', rfl, rfl, hoo⟩
  | none =>
    right
    dsimp only
    split <;> exact ⟨_, rfl, rfl⟩

/-- Are checks alike: do they come to results of which both are aborted or neither, and if they are not, with the same
errors up to their order? Checks that fail are alike if they do so for the same reason, or both because fragments cannot
be inlined (the first fragment to blame can be another). -/
def AreAlike : Except CheckError CheckResult → Except CheckError CheckResult → Prop
  | .ok result, .ok result' =>
    result.aborted = result'.aborted ∧ (result.aborted = false → result.errors.Perm result'.errors)
  | .error cause, .error cause' => cause = cause' ∨ ∃ c c', cause = .inlining c ∧ cause' = .inlining c'
  | _, _ => False

theorem areAlike_ofWalk {root : String} {operation operation' : Operation} {fixture : Json}
    (hr : operation.Reordered operation') (hk : HasKey K operation.selections) :
    AreAlike (.ok (.ofWalk (walkOperation schema root operation fixture)))
      (.ok (.ofWalk (walkOperation schema root operation' fixture))) := by
  cases hw : (walkOperation schema root operation fixture).outcome with
  | ok tree =>
    obtain ⟨tree', hw', herrors, hextra⟩ := walkOperation_reordered hr hk hw
    rw [ofWalk_ok hw, ofWalk_ok hw']
    exact ⟨rfl, fun _ => (herrors.map _).append (hextra.map _)⟩
  | error cause =>
    cases hw' : (walkOperation schema root operation' fixture).outcome with
    | ok tree' =>
      obtain ⟨tree, hok, -⟩ := walkOperation_reordered hr.symm (hk.of_reordered hr.2) hw'
      rw [hw] at hok
      cases hok
    | error cause' =>
      obtain ⟨ha, -⟩ := ofWalk_error hw
      obtain ⟨ha', -⟩ := ofWalk_error hw'
      exact ⟨ha.trans ha'.symm, fun hno => Bool.noConfusion (ha.symm.trans hno)⟩

/-- **The order of selections does not matter** where all `__typename` fields have one key. -/
theorem check_reordered (hk : HasOneKey K document) (h : DocumentReordered document document') (fixture : Json)
    (name : Option String) :
    AreAlike (check schema document fixture name) (check schema document' fixture name) := by
  unfold check
  cases hi : GraphQL.inline document with
  | error cause =>
    cases hi' : GraphQL.inline document' with
    | error cause' => exact .inr ⟨cause, cause', rfl, rfl⟩
    | ok inlined' =>
      obtain ⟨inlined, hok, -⟩ := reordered_inline h.symm hi'
      rw [hi] at hok
      cases hok
  | ok inlined =>
    obtain ⟨inlined', hi', hr⟩ := reordered_inline h hi
    rw [hi']
    simp only [Except.mapError, bind, Except.bind]
    obtain ⟨o, o', ho, ho', hoo⟩ | ⟨cause, ho, ho'⟩ := selectOperation_reordered hr name
    · have hroot : rootType schema o' = rootType schema o := by rw [rootType, rootType, hoo.1]
      simp only [ho, ho', hroot]
      cases rootType schema o with
      | error cause => exact .inl rfl
      | ok root => exact areAlike_ofWalk hoo (hk.of_selectOperation hi ho)
    · simp only [ho, ho']
      exact .inl rfl

/-- The query for pets with the dogs first. -/
def dogQuery : Document := [
  .operation ⟨none, .query, none, [], [], [plain "pets" [.spread "Described" []]]⟩,
  .fragment ⟨none, "Described", "Pet", [], [.inline (some "Dog") [] [plain "friend" [plain "__typename" []]],
    plain "__typename" [],
    .inline (some "Cat") [] [plain "name" []]]⟩]

theorem hasOneKey_petQuery : HasOneKey "__typename" petQuery where
  operations := by
    simp [GraphQL.operations, petQuery, HasKey, fieldsIn, fieldsAt, plain, GraphQL.Field.key]
  fragments := by
    simp [GraphQL.fragments, petQuery, HasKey, fieldsIn, fieldsAt, plain, GraphQL.Field.key]

theorem petQuery_reordered : DocumentReordered petQuery dogQuery :=
  .cons (.same _) (.cons (.fragment (.of_perm (.trans (.cons _ (.swap ..)) (.swap ..)))) .nil)

/-- A cat without a name and a dog that does not tell its friend. -/
def halfTold : Json := .obj [("pets", .arr [.obj [("__typename", .str "Cat")], .obj [("__typename", .str "Dog")]])]

/-- The operation for pets that selects what a fragment selects. -/
def describing (selections : List Selection) : Operation :=
  ⟨none, .query, none, [], [], [plain "pets" [.inline (some "Pet") [] selections]]⟩

theorem check_petQuery_halfTold : check petSchema petQuery halfTold none =
    .ok ⟨[(Mismatch.missing "name").message, (Mismatch.missing "friend").message], false⟩ :=
  have hc : Compares petSchema petQuery none (describing [plain "__typename" [],
    .inline (some "Cat") [] [plain "name" []],
    .inline (some "Dog") [] [plain "friend" [plain "__typename" []]]]) "Query" := ⟨⟨_, by cbv, rfl⟩, by cbv⟩
  hc.check_eq [.missing "name", .missing "friend"] [] (by cbv) (by cbv)

theorem check_dogQuery_halfTold : check petSchema dogQuery halfTold none =
    .ok ⟨[(Mismatch.missing "friend").message, (Mismatch.missing "name").message], false⟩ :=
  have hc : Compares petSchema dogQuery none (describing [
    .inline (some "Dog") [] [plain "friend" [plain "__typename" []]], plain "__typename" [],
    .inline (some "Cat") [] [plain "name" []]]) "Query" := ⟨⟨_, by cbv, rfl⟩, by cbv⟩
  hc.check_eq [.missing "friend", .missing "name"] [] (by cbv) (by cbv)

/-- What is missed on dogs is reported before what is missed on cats if the query has the dogs first. -/
theorem halfTold_reordered : HasOneKey "__typename" petQuery ∧ DocumentReordered petQuery dogQuery ∧
    check petSchema petQuery halfTold none =
      .ok ⟨[(Mismatch.missing "name").message, (Mismatch.missing "friend").message], false⟩ ∧
    check petSchema dogQuery halfTold none =
      .ok ⟨[(Mismatch.missing "friend").message, (Mismatch.missing "name").message], false⟩ ∧
    AreAlike (check petSchema petQuery halfTold none) (check petSchema dogQuery halfTold none) :=
  ⟨hasOneKey_petQuery, petQuery_reordered, check_petQuery_halfTold, check_dogQuery_halfTold,
    check_reordered hasOneKey_petQuery petQuery_reordered halfTold none⟩

end

end FixtureCheck.Fixture
