import FixtureCheck.Proofs.Walk.Exchange
import FixtureCheck.Proofs.Walk.Verdict
import FixtureCheck.Proofs.Walk.Within

/-!
# Walks through two fixtures

What stands in another fixture at the place of an object is its `counterpart`. If the checks of fields find the same in
the counterparts of the objects that a walk reaches, and go on with counterparts again (`HasCounterparts`), then the
walk through the other fixture is the walk with the objects exchanged for their counterparts
(`HasCounterparts.exchanges`, `HasCounterparts.walkOperation_counterpart`). It comes to the counterparts in the order of
the objects, and expects the same keys of them (`distinctObjects_counterpart`,
`HasCounterparts.isExpected_counterpart`).
-/

namespace FixtureCheck.Fixture

open GraphQL (Schema Selection OutputField Operation)
open Expectation

/-- What stands in another fixture at the place of a value. -/
def counterpart (fixture' : Json) (v : Located) : Located := ⟨v.path, (fixture'.get? v.path).getD v.value⟩

section

variable {fixture fixture' : Json}

theorem counterpart_eq {v v' : Located} (hp : v'.path = v.path) (h : v'.IsIn fixture') :
    counterpart fixture' v = v' := by
  obtain ⟨path, value⟩ := v'
  subst hp
  rw [Located.IsIn] at h
  rw [counterpart, h]
  rfl

theorem isIn_root (fixture : Json) : Located.IsIn fixture ⟨[], fixture⟩ := by
  simp [Located.IsIn, Json.get?]

theorem counterpart_root : counterpart fixture' ⟨[], fixture⟩ = ⟨[], fixture'⟩ :=
  counterpart_eq rfl (isIn_root fixture')

/-- Values at the places of others, which stand in the other fixture, are the counterparts of these. -/
theorem map_counterpart {R : Located → Located → Prop} (hR : ∀ v v', R v v' → v'.path = v.path) :
    ∀ {values values' : List Located}, List.Forall₂ R values values' → (∀ v' ∈ values', v'.IsIn fixture') →
      values' = values.map (counterpart fixture') ∧
        ∀ v ∈ values, (counterpart fixture' v).IsIn fixture' ∧ R v (counterpart fixture' v)
  | [], [], .nil, _ => ⟨rfl, fun _ hv => absurd hv List.not_mem_nil⟩
  | v :: rest, v' :: rest', .cons hv hrest, h => by
    obtain ⟨hin, hrestin⟩ := List.forall_mem_cons.1 h
    obtain ⟨heq, hall⟩ := map_counterpart hR hrest hrestin
    have hv' := counterpart_eq (hR v v' hv) hin
    refine ⟨by rw [List.map_cons, hv', ← heq], List.forall_mem_cons.2 ⟨?_, hall⟩⟩
    rw [hv']
    exact ⟨hin, hv⟩

/-- The check of a field of an object in a fixture goes on with values in the fixture. -/
theorem isIn_of_mem_checkField {schema : Schema} {frame : Frame} {key : String} {type : GraphQL.TypeRef}
    {u c : Located} (hu : u.IsIn fixture) (hc : c ∈ (checkField schema frame key type u).children) :
    c.IsIn fixture := by
  obtain ⟨w, hw, hwithin⟩ := within_of_mem_checkField hc
  exact hwithin.isIn (Located.isIn_field? hu hw).1

/-! ## Objects of scopes -/

theorem any_samePlace_counterpart (objects : List Located) (o : Located) :
    (objects.map (counterpart fixture')).any (samePlace (counterpart fixture' o)) = objects.any (samePlace o) := by
  rw [List.any_map]
  rfl

/-- Counterparts are taken up like the objects that they are those of. -/
theorem foldl_takeUp_counterpart : ∀ objects done : List Located,
    (objects.map (counterpart fixture')).foldl takeUp (done.map (counterpart fixture')) =
      (objects.foldl takeUp done).map (counterpart fixture')
  | [], _ => rfl
  | o :: rest, done => by
    have hstep : takeUp (done.map (counterpart fixture')) (counterpart fixture' o) =
        (takeUp done o).map (counterpart fixture') := by
      rw [takeUp, takeUp, any_samePlace_counterpart]
      split
      · rfl
      · rw [List.map_append, List.map_singleton]
    rw [List.map_cons, List.foldl_cons, List.foldl_cons, hstep]
    exact foldl_takeUp_counterpart rest _

/-- The objects of a tree with counterparts are the counterparts of its objects, in the same order. -/
theorem distinctObjects_counterpart (tree : Expectation) :
    distinctObjects (tree.exchange (List.map (counterpart fixture'))) =
      (distinctObjects tree).map (counterpart fixture') := by
  rw [distinctObjects_eq, distinctObjects_eq, walk_exchange, List.flatMap_map]
  simp only [objects_exchange]
  rw [← List.map_flatMap]
  exact foldl_takeUp_counterpart _ []

end

/-! ## Walks -/

/-- **Do the objects that a walk reaches have counterparts in another fixture** that pass for them: of the same kind,
with the same types where names of types are read, and with the same answers to the fields that the walk looks at?
`stands` is what the walk hands on from objects to those below them. -/
structure HasCounterparts (schema : Schema) (fixture fixture' : Json) (stands : Located → Prop) (top : List Selection)
    (start : Frame) : Prop where
  starts : ∀ v ∈ start.values, stands v
  isIn : ∀ v, stands v → v.IsIn fixture
  kindOf_eq : ∀ v, stands v → kindOf (counterpart fixture' v).value = kindOf v.value
  typename?_eq : ∀ selections frame, Reaches schema top start selections frame → ∀ v ∈ frame.values, stands v →
    ∀ step ∈ setSteps schema [] selections frame, ∀ conditions inner, step.place? = some (conditions, inner) →
      typename? (counterpart fixture' v).value inner.typenameKey = typename? v.value inner.typenameKey
  checks : ∀ selections frame, Reaches schema top start selections frame → ∀ narrowed m definition,
    LooksAt schema selections frame narrowed m definition → ∀ u ∈ narrowed.values, stands u → ∀ values,
      let result := checkField schema narrowed m.field.key definition.type u
      let result' := checkField schema { narrowed with values } m.field.key definition.type (counterpart fixture' u)
      result'.errors = result.errors ∧ result'.children = result.children.map (counterpart fixture') ∧
        ∀ c ∈ result.children, stands c

namespace HasCounterparts

variable {schema : Schema} {fixture fixture' : Json} {stands : Located → Prop} {top selections : List Selection}
  {start frame : Frame}

/-- Objects that a walk reaches stand as those do that it starts with. -/
theorem of_reaches (h : HasCounterparts schema fixture fixture' stands top start)
    (hr : Reaches schema top start selections frame) : ∀ v ∈ frame.values, stands v := by
  induction hr with
  | here => exact h.starts
  | @field selections frame narrowed m definition hr hl hne ih =>
    intro c hc
    obtain ⟨u, hu, hc⟩ := mem_values_below.1 hc
    have hstands := ih u (values_of_mem_setSteps rfl hl.step u hu)
    exact (h.checks selections frame hr narrowed m definition hl u hu hstands []).2.2 c hc

/-- **The walk goes through the counterparts as through the objects.** -/
theorem exchanges (h : HasCounterparts schema fixture fixture' stands top start) :
    Exchanges schema (List.map (counterpart fixture')) top start where
  enters selections frame hr conditions narrowed inner hm possible := by
    rw [List.filter_map]
    congr 1
    refine List.filter_congr fun v hv => ?_
    have hin := values_of_mem_setSteps rfl hm v hv
    have htype := h.typename?_eq selections frame hr v hin (h.of_reaches hr v hin) _ hm _ _ rfl
    rw [Function.comp_apply, Frame.isReached, Frame.isReached, htype]
  goesOn selections frame hr narrowed m definition hl := by
    rw [checkAll_eq, checkAll_eq]
    dsimp only [Frame.exchange]
    rw [List.flatMap_map, List.map_flatMap]
    refine List.flatMap_congr fun u hu => ?_
    have hstands := h.of_reaches hr u (values_of_mem_setSteps rfl hl.step u hu)
    exact (h.checks selections frame hr narrowed m definition hl u hu hstands _).2.1
  holds selections frame hr key := by
    have hobject : ∀ v ∈ frame.values, (Located.isObject ∘ counterpart fixture') v = Located.isObject v := by
      intro v hv
      have hkind := h.kindOf_eq v (h.of_reaches hr v hv)
      rw [Function.comp_apply, Located.isObject, Located.isObject, hkind]
    rw [objects_holding, objects_holding, List.filter_map, List.filter_congr hobject]
    exact foldl_takeUp_counterpart _ []

theorem reportsSame (h : HasCounterparts schema fixture fixture' stands top start) :
    ReportsSame schema (List.map (counterpart fixture')) top start := by
  intro selections frame hr narrowed m definition hl
  rw [checkAll_eq, checkAll_eq]
  dsimp only [Frame.exchange]
  rw [List.flatMap_map]
  refine List.flatMap_congr fun u hu => ?_
  have hstands := h.of_reaches hr u (values_of_mem_setSteps rfl hl.step u hu)
  exact (h.checks selections frame hr narrowed m definition hl u hu hstands _).1

/-- A scope expects the same keys of an object that it holds and of its counterpart. -/
theorem applicable_counterpart (h : HasCounterparts schema fixture fixture' stands top start) {scope : Expectation}
    (hr : Reaches schema top start selections frame) (hb : Builds schema selections frame scope) {v : Located}
    (hv : v ∈ frame.values) : scope.applicable (counterpart fixture' v) = scope.applicable v := by
  have htype : typename? (counterpart fixture' v).value scope.typenameKey = typename? v.value scope.typenameKey := by
    rw [hb.typenameKey_eq]
    cases hkey : namingKey schema selections frame with
    | none => rfl
    | some key =>
      obtain ⟨step, hm, hs⟩ := List.exists_of_findSome?_eq_some hkey
      cases step with
      | stop cause => cases hs
      | field conditions inner f sub => cases hs
      | set conditions inner sub =>
        have hsame := h.typename?_eq selections frame hr v hv (h.of_reaches hr v hv) _ hm _ _ rfl
        have hinner : inner.typenameKey = some key := hs
        rw [hinner] at hsame
        exact hsame
  rw [applicable, applicable, htype]

/-- The objects of a tree are reached by the walk. -/
theorem stands_of_mem (h : HasCounterparts schema fixture fixture' stands top start) {tree : Expectation}
    (hb : Builds schema top start tree) {v : Located} (hv : v ∈ distinctObjects tree) : stands v := by
  rw [distinctObjects_eq] at hv
  obtain ⟨scope, hs, hv⟩ := List.mem_flatMap.1 ((mem_foldl_takeUp hv).resolve_left List.not_mem_nil)
  obtain ⟨selections, frame, hr, hscope⟩ := exists_reaches_of_mem_walk hb hs
  exact h.of_reaches hr v (hscope.object_of_mem hv).1

/-- **A tree expects the same keys of an object and of its counterpart.** -/
theorem isExpected_counterpart (h : HasCounterparts schema fixture fixture' stands top start) {tree : Expectation}
    (hb : Builds schema top start tree) {v : Located} (hv : stands v) (k : String) :
    isExpected (tree.exchange (List.map (counterpart fixture'))).walk (counterpart fixture' v) k =
      isExpected tree.walk v k := by
  rw [isExpected, isExpected, walk_exchange, List.any_map, Bool.eq_iff_iff, List.any_eq_true, List.any_eq_true]
  refine exists_congr fun scope => and_congr_right fun hscope => ?_
  have hholds : (scope.exchange (List.map (counterpart fixture'))).holds (counterpart fixture' v) = scope.holds v := by
    rw [Expectation.holds, objects_exchange, any_samePlace_counterpart]
    rfl
  rw [Function.comp_apply, hholds, applicable_exchange, Bool.and_eq_true, Bool.and_eq_true]
  refine and_congr_right fun hheld => ?_
  obtain ⟨u, hu, hpath⟩ := Expectation.holds_iff.1 hheld
  obtain ⟨selections, frame, hr, hb'⟩ := exists_reaches_of_mem_walk hb hscope
  have hin := (hb'.object_of_mem hu).1
  obtain rfl : u = v := Located.eq_of_path (h.isIn u (h.of_reaches hr u hin)) (h.isIn v hv) hpath
  rw [h.applicable_counterpart hr hb' hin]

theorem kindOf_root {root : String}
    (h : HasCounterparts schema fixture fixture' stands top (rootFrame schema root fixture)) :
    kindOf fixture' = kindOf fixture := by
  have hkind := h.kindOf_eq _ (h.starts _ (List.mem_singleton_self _))
  rw [counterpart_root] at hkind
  exact hkind

/-- **The walk of an operation through the other fixture reports the same**, and comes to the tree with counterparts. -/
theorem walkOperation_counterpart {operation : Operation} {root : String}
    (h : HasCounterparts schema fixture fixture' stands operation.selections (rootFrame schema root fixture))
    (hk : kindOf fixture = .object) :
    (walkOperation schema root operation fixture').errors = (walkOperation schema root operation fixture).errors ∧
      (walkOperation schema root operation fixture').outcome =
        (walkOperation schema root operation fixture).outcome.map (exchange (List.map (counterpart fixture'))) := by
  have hk' : kindOf fixture' = .object := h.kindOf_root.trans hk
  have hframe : rootFrame schema root fixture' =
      (rootFrame schema root fixture).exchange (List.map (counterpart fixture')) := by
    rw [rootFrame, ← counterpart_root]
    rfl
  have hholding := holding_exchange (h.exchanges.holds _ _ .here none)
  obtain ⟨houtcome, herrors⟩ := walkSet_exchange h.exchanges (holding none (rootFrame schema root fixture).values)
  have hwalk : walkOperation schema root operation fixture' =
      walkSet schema operation.selections ((rootFrame schema root fixture).exchange (List.map (counterpart fixture')))
        ((holding none (rootFrame schema root fixture).values).exchange (List.map (counterpart fixture'))) := by
    rw [walkOperation_of_object hk', hframe, ← hholding]
    rfl
  rw [hwalk, walkOperation_of_object hk]
  exact ⟨herrors h.reportsSame, houtcome⟩

/-- Walks through anything but objects look at the kind alone. -/
theorem walkOperation_of_not_object {operation : Operation} {root : String}
    (h : HasCounterparts schema fixture fixture' stands operation.selections (rootFrame schema root fixture))
    (hk : kindOf fixture ≠ .object) :
    walkOperation schema root operation fixture' = walkOperation schema root operation fixture := by
  simp only [walkOperation, h.kindOf_root, if_neg hk]

end HasCounterparts

end FixtureCheck.Fixture
