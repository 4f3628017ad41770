import FixtureCheck.Proofs.Walk.Exchange
import FixtureCheck.Proofs.Walk.Expected
import FixtureCheck.Proofs.Walk.Within
import Mathlib.Data.List.Perm.Basic

/-!
# Walks through some of the objects

A walk goes through a selection set with all objects at once. A test of values that holds below an object if it holds
of the object (`Divides`) divides such a walk in two: one with the objects that pass and one with the others, which
report together what the walk reports (`Divides.perm_errors`, `Divides.perm_extraFields`). Objects that have no object
in common are told apart by such a test, so the walk with all of them reports what walks with each of them report
(`walk_of_apart`).
-/

namespace FixtureCheck.Fixture

open GraphQL (Schema Selection)
open Expectation

/-! ## Objects that pass a test -/

section

variable {p : Located → Bool}

/-- The values that pass a test come of those that pass it, if it is the same for a value and for what comes of it. -/
theorem flatMap_filter_eq_filter_flatMap {f : Located → List Located} : ∀ {values : List Located},
    (∀ v ∈ values, ∀ c ∈ f v, p c = p v) → (values.filter p).flatMap f = (values.flatMap f).filter p
  | [], _ => rfl
  | v :: rest, h => by
    obtain ⟨hv, hrest⟩ := List.forall_mem_cons.1 h
    rw [List.flatMap_cons, List.filter_append, ← flatMap_filter_eq_filter_flatMap hrest, List.filter_cons]
    cases hp : p v with
    | true =>
      have hall : (f v).filter p = f v := List.filter_eq_self.2 fun c hc => (hv c hc).trans hp
      rw [hall]
      rfl
    | false =>
      have hnone : (f v).filter p = [] := List.filter_eq_nil_iff.2 fun c hc => by simp [hv c hc, hp]
      rw [hnone]
      rfl

/-- What comes of values comes of those that pass a test and of the others. -/
theorem perm_flatMap_filter {β : Type} (f : Located → List β) (values : List Located) :
    (values.flatMap f).Perm ((values.filter p).flatMap f ++ (values.filter (!p ·)).flatMap f) := by
  rw [← List.flatMap_append]
  exact ((List.filter_append_perm p values).flatMap_right f).symm

/-- Objects that pass a test are taken up as before, if the test is the same for all at one place. -/
theorem foldl_takeUp_filter : ∀ {objects done : List Located},
    (∀ u ∈ done ++ objects, ∀ v ∈ done ++ objects, u.path = v.path → p u = p v) →
      (objects.filter p).foldl takeUp (done.filter p) = (objects.foldl takeUp done).filter p
  | [], _, _ => rfl
  | o :: rest, done, h => by
    have hkept : ∀ u ∈ takeUp done o ++ rest, u ∈ done ++ o :: rest := by
      intro u hu
      unfold takeUp at hu
      split at hu <;> simp only [List.mem_append, List.mem_cons, List.not_mem_nil, or_false] at hu ⊢ <;> tauto
    have hrest : (rest.filter p).foldl takeUp ((takeUp done o).filter p) =
        (rest.foldl takeUp (takeUp done o)).filter p :=
      foldl_takeUp_filter fun u hu v hv => h u (hkept u hu) v (hkept v hv)
    have ho : o ∈ done ++ o :: rest := by simp
    rw [List.foldl_cons, ← hrest, List.filter_cons]
    cases hp : p o with
    | true =>
      have hany : (done.filter p).any (samePlace o) = done.any (samePlace o) := by
        rw [Bool.eq_iff_iff, List.any_eq_true, List.any_eq_true]
        refine exists_congr fun u => and_congr_left fun hsame => ?_
        rw [List.mem_filter, and_iff_left_iff_imp]
        intro hu
        exact (h u (List.mem_append_left _ hu) o ho (samePlace_iff.1 hsame).symm).trans hp
      have hstep : (takeUp done o).filter p = takeUp (done.filter p) o := by
        unfold takeUp
        rw [hany]
        split
        · rfl
        · rw [List.filter_append, List.filter_cons_of_pos hp, List.filter_nil]
      rw [hstep]
      rfl
    | false =>
      have hstep : (takeUp done o).filter p = done.filter p := by
        unfold takeUp
        split
        · rfl
        · rw [List.filter_append, List.filter_cons_of_neg (by simp [hp]), List.filter_nil, List.append_nil]
      rw [hstep]
      rfl

end

/-! ## Tests that divide a walk -/

/-- **A test divides a walk** if it holds below an object just as it holds of the object, and is the same for all
objects at one place. -/
structure Divides (schema : Schema) (p : Located → Bool) (top : List Selection) (start : Frame) : Prop where
  below : ∀ selections frame, Reaches schema top start selections frame → ∀ narrowed m definition,
    LooksAt schema selections frame narrowed m definition → ∀ v ∈ narrowed.values,
      ∀ c ∈ (checkField schema narrowed m.field.key definition.type v).children, p c = p v
  places : ∀ selections frame, Reaches schema top start selections frame →
    ∀ selections' frame', Reaches schema top start selections' frame' →
      ∀ u ∈ frame.values, ∀ v ∈ frame'.values, kindOf u.value = .object → kindOf v.value = .object →
        u.path = v.path → p u = p v

section

variable {schema : Schema} {p : Located → Bool} {top : List Selection} {start : Frame}

/-- The check of a field does not depend on the other objects of a frame. -/
theorem checkField_exchange (g : List Located → List Located) (frame : Frame) (key : String)
    (type : GraphQL.TypeRef) (v : Located) :
    checkField schema (frame.exchange g) key type v = checkField schema frame key type v := rfl

namespace Divides

theorem not (h : Divides schema p top start) : Divides schema (!p ·) top start where
  below selections frame hr narrowed m definition hl v hv c hc :=
    congrArg (!·) (h.below selections frame hr narrowed m definition hl v hv c hc)
  places selections frame hr selections' frame' hr' u hu v hv hku hkv hp :=
    congrArg (!·) (h.places selections frame hr selections' frame' hr' u hu v hv hku hkv hp)

/-- The test divides the walks through the sets below. -/
theorem of_reaches (h : Divides schema p top start) {selections : List Selection} {frame : Frame}
    (hr : Reaches schema top start selections frame) : Divides schema p selections frame where
  below selections' frame' hr' := h.below selections' frame' (hr.trans hr')
  places selections' frame' hr' selections'' frame'' hr'' :=
    h.places selections' frame' (hr.trans hr') selections'' frame'' (hr.trans hr'')

/-- A walk with the objects that pass goes on with the objects that pass. -/
theorem exchanges (h : Divides schema p top start) : Exchanges schema (List.filter p) top start where
  enters _ _ _ _ _ _ _ _ := List.filter_comm ..
  goesOn selections frame hr narrowed m definition hl := by
    simp only [checkAll_eq, checkField_exchange]
    exact flatMap_filter_eq_filter_flatMap (h.below selections frame hr narrowed m definition hl)
  holds selections frame hr key := by
    rw [objects_holding, objects_holding, List.filter_comm, ← foldl_takeUp_filter, List.filter_nil]
    intro u hu v hv
    obtain ⟨hu, hku⟩ := mem_values_of_isObject hu
    obtain ⟨hv, hkv⟩ := mem_values_of_isObject hv
    exact h.places selections frame hr selections frame hr u hu v hv hku hkv

/-! ### Mismatches -/

/-- **The mismatches of a walk are those of the walks with the objects that pass and with the others.** -/
theorem perm_errors {top : List Selection} {start : Frame} {e e' : Expectation} (h : Divides schema p top start)
    (hw : (walkSet schema top start e).outcome = .ok e') :
    (walkSet schema top start e).errors.Perm
      ((walkSet schema top (start.exchange (List.filter p)) (e.exchange (List.filter p))).errors ++
        (walkSet schema top (start.exchange (List.filter (!p ·))) (e.exchange (List.filter (!p ·)))).errors) := by
  have hsteps : ∀ {q : Located → Bool}, Divides schema q top start →
      (walkSet schema top (start.exchange (List.filter q)) (e.exchange (List.filter q))).errors =
        (setSteps schema [] top start).flatMap fun step => (step.exchange (List.filter q)).errors schema := by
    intro q hq
    have ho := (walkSet_exchange hq.exchanges e).1
    rw [hw, walkSet_eq_run schema [], setSteps_exchange (hq.exchanges.enters top start .here)] at ho
    rw [walkSet_eq_run schema [], setSteps_exchange (hq.exchanges.enters top start .here), errors_run ho,
      List.flatMap_map]
  have hall : (walkSet schema top start e).errors = (setSteps schema [] top start).flatMap (Step.errors schema) := by
    have hw' := hw
    rw [walkSet_eq_run schema []] at hw' ⊢
    exact errors_run hw'
  rw [hall, hsteps h, hsteps h.not]
  refine .trans (.flatMap_left _ fun step hm => ?_) (List.flatMap_append_perm _ _ _).symm
  cases step with
  | stop cause => exact .refl _
  | set conditions narrowed inner => exact .refl _
  | field conditions narrowed f inner =>
    have htype : ∀ g, (narrowed.exchange g).type = narrowed.type := fun _ => rfl
    simp only [Step.exchange, Step.errors, htype]
    cases hd : schema.fieldOf? (some narrowed.type) f.name with
    | none => exact .refl _
    | some definition =>
      have hl : LooksAt schema top start narrowed ⟨conditions, f, inner⟩ definition := ⟨hm, hd⟩
      have hhere : (checkAll schema narrowed f.key definition.type).errors.Perm
          ((checkAll schema (narrowed.exchange (List.filter p)) f.key definition.type).errors ++
            (checkAll schema (narrowed.exchange (List.filter (!p ·))) f.key definition.type).errors) := by
        simp only [checkAll_eq, checkField_exchange]
        exact perm_flatMap_filter _ _
      cases inner with
      | nil => simpa using hhere
      | cons first rest =>
        have hne : (⟨conditions, f, first :: rest⟩ : Met).selections ≠ [] := List.cons_ne_nil _ _
        obtain ⟨child, hchild⟩ := hl.builds hne hw
        have hlt := sizeOf_lt_of_mem_setSteps hm
        have hwalk := h.exchanges.walkBelow_exchange hl hne
        have hwalk' := h.not.exchanges.walkBelow_exchange hl hne
        have hbelow := (h.of_reaches (.field .here hl hne)).perm_errors hchild
        simp only at hwalk hwalk'
        simp only [List.isEmpty_cons, Bool.false_eq_true, ↓reduceIte, hwalk, hwalk']
        refine (hhere.append hbelow).trans ?_
        simp only [List.append_assoc]
        exact .append_left _ (List.perm_append_comm_assoc ..)
termination_by sizeOf top

/-! ### Keys that are left over -/

/-- The objects of all scopes of a walk that stand at one place pass the test or do not. -/
theorem eq_of_path_eq (h : Divides schema p top start) {tree : Expectation} (hb : Builds schema top start tree)
    {u v : Located} (hu : u ∈ tree.walk.flatMap (·.objects)) (hv : v ∈ tree.walk.flatMap (·.objects))
    (hp : u.path = v.path) : p u = p v := by
  obtain ⟨scope, hs, hu⟩ := List.mem_flatMap.1 hu
  obtain ⟨scope', hs', hv⟩ := List.mem_flatMap.1 hv
  obtain ⟨selections, frame, hr, hscope⟩ := exists_reaches_of_mem_walk hb hs
  obtain ⟨selections', frame', hr', hscope'⟩ := exists_reaches_of_mem_walk hb hs'
  obtain ⟨hu, hku⟩ := hscope.object_of_mem hu
  obtain ⟨hv, hkv⟩ := hscope'.object_of_mem hv
  exact h.places selections frame hr selections' frame' hr' u hu v hv hku hkv hp

/-- A walk with the objects that pass lists these objects. -/
theorem distinctObjects_exchange (h : Divides schema p top start) {tree : Expectation}
    (hb : Builds schema top start tree) :
    distinctObjects (tree.exchange (List.filter p)) = (distinctObjects tree).filter p := by
  have hobjects : (tree.exchange (List.filter p)).walk.flatMap (·.objects) =
      (tree.walk.flatMap (·.objects)).filter p := by
    rw [walk_exchange, List.flatMap_map, List.filter_flatMap]
    simp only [objects_exchange]
  rw [distinctObjects_eq, distinctObjects_eq, hobjects, ← foldl_takeUp_filter fun u hu v hv => h.eq_of_path_eq hb hu hv,
    List.filter_nil]

/-- A walk with the objects that pass expects of each of them what the walk with all objects does. -/
theorem isExpected_exchange (h : Divides schema p top start) {tree : Expectation}
    (hb : Builds schema top start tree) {v : Located} (hv : v ∈ tree.walk.flatMap (·.objects)) (hp : p v = true)
    (key : String) : isExpected (tree.exchange (List.filter p)).walk v key = isExpected tree.walk v key := by
  unfold isExpected
  rw [walk_exchange, List.any_map, Bool.eq_iff_iff, List.any_eq_true, List.any_eq_true]
  refine exists_congr fun scope => and_congr_right fun hs => ?_
  have hholds : (scope.exchange (List.filter p)).holds v = scope.holds v := by
    rw [Bool.eq_iff_iff, Expectation.holds_iff, Expectation.holds_iff, objects_exchange]
    refine exists_congr fun u => and_congr_left fun hsame => ?_
    rw [List.mem_filter, and_iff_left_iff_imp]
    exact fun hu => (h.eq_of_path_eq hb (List.mem_flatMap.2 ⟨scope, hs, hu⟩) hv hsame).trans hp
  simp only [Function.comp_apply, hholds, applicable_exchange]

theorem extraFields_exchange (h : Divides schema p top start) {tree : Expectation}
    (hb : Builds schema top start tree) :
    extraFields (tree.exchange (List.filter p)) = ((distinctObjects tree).filter p).flatMap fun object =>
      object.keys.filter (!isExpected tree.walk object ·) := by
  rw [extraFields, h.distinctObjects_exchange hb]
  refine List.flatMap_congr fun v hv => ?_
  obtain ⟨hv, hp⟩ := List.mem_filter.1 hv
  have hin := (mem_foldl_takeUp (distinctObjects_eq tree ▸ hv)).resolve_left List.not_mem_nil
  simp only [h.isExpected_exchange hb hin hp]

/-- **The keys that a walk leaves over are those of the walks with the objects that pass and with the others.** -/
theorem perm_extraFields (h : Divides schema p top start) {tree : Expectation} (hb : Builds schema top start tree) :
    (extraFields tree).Perm
      (extraFields (tree.exchange (List.filter p)) ++ extraFields (tree.exchange (List.filter (!p ·)))) := by
  rw [h.extraFields_exchange hb, h.not.extraFields_exchange hb]
  exact perm_flatMap_filter _ _

end Divides

end

/-! ## Objects that have nothing in common -/

/-- **Do values have no object in common**, at any depth? -/
def Apart (xs ys : List Located) : Prop := ∀ x ∈ xs, ∀ y ∈ ys, ∀ place, x.HasObject place → ¬ y.HasObject place

/-- Does a value stand within one of some values? -/
def StandsIn (values : List Located) (v : Located) : Prop := ∃ u ∈ values, u.Within v

/-- Objects at different places of equal depth, such as items of one array, are apart. -/
theorem apart_of_ne {u v : Located} (hlength : u.path.length = v.path.length) (hne : u.path ≠ v.path) :
    Apart [u] [v] := by
  intro x hx y hy place hux hvy
  rw [List.mem_singleton.1 hx] at hux
  rw [List.mem_singleton.1 hy] at hvy
  obtain ⟨o, rfl, ⟨r, hr, -⟩, -⟩ := hux
  obtain ⟨o', ho, ⟨r', hr', -⟩, -⟩ := hvy
  have hsame : u.path ++ r = v.path ++ r' := by rw [← hr, ← hr', ho]
  exact hne (List.append_inj_left hsame hlength)

section

variable {schema : Schema} {selections : List Selection} {frame : Frame} {key : Option String} {xs ys : List Located}
  {tree : Expectation}

/-- What stands in objects does not stand in objects that are apart from them. -/
theorem Apart.not_standsIn (h : Apart xs ys) (hx : ∀ x ∈ xs, kindOf x.value = .object)
    (hy : ∀ y ∈ ys, kindOf y.value = .object) {v : Located} (hv : StandsIn ys v) : ¬ StandsIn xs v := by
  rintro ⟨x, hxm, hxv⟩
  obtain ⟨y, hym, hyv⟩ := hv
  obtain ⟨place, hxp, hyp⟩ := Located.exists_hasObject (hx x hxm) (hy y hym) hxv hyv
  exact h x hxm y hym place hxp hyp

open Classical in
/-- Objects that are apart divide the walk with all of them. -/
theorem Apart.divides (h : Apart xs ys) (hx : ∀ x ∈ xs, kindOf x.value = .object)
    (hy : ∀ y ∈ ys, kindOf y.value = .object) (hvalues : frame.values = xs ++ ys) :
    Divides schema (fun v => decide (StandsIn xs v)) selections frame := by
  have hall : ∀ {inner : List Selection} {below : Frame}, Reaches schema selections frame inner below →
      ∀ v ∈ below.values, StandsIn xs v ∨ StandsIn ys v := by
    intro inner below hr v hv
    obtain ⟨u, hu, hw⟩ := hr.exists_within hv
    rw [hvalues] at hu
    exact (List.mem_append.1 hu).imp (⟨u, ·, hw⟩) (⟨u, ·, hw⟩)
  refine ⟨fun inner below hr narrowed m definition hl v hv c hc => ?_,
    fun inner below hr inner' below' hr' u hu v hv hku hkv hp => ?_⟩
  · obtain ⟨w, hfield, hw⟩ := within_of_mem_checkField hc
    have hwithin := (Located.Within.of_field? hfield).trans hw
    have hdown : ∀ {values : List Located}, StandsIn values v → StandsIn values c :=
      fun ⟨u, hu, huv⟩ => ⟨u, hu, huv.trans hwithin⟩
    refine decide_eq_decide.2 ⟨fun hcx => ?_, hdown⟩
    rcases hall hr v (values_of_mem_setSteps rfl hl.step v hv) with hvx | hvy
    · exact hvx
    · exact absurd hcx (h.not_standsIn hx hy (hdown hvy))
  · -- objects at one place stand in the same values, or these would have the place in common
    have hapart : ∀ {u v : Located}, kindOf u.value = .object → kindOf v.value = .object → u.path = v.path →
        StandsIn xs u → ¬ StandsIn ys v := by
      rintro u v hku hkv hp ⟨x, hxm, hxu⟩ ⟨y, hym, hyv⟩
      exact h x hxm y hym v.path ⟨u, hp, hxu, hku⟩ ⟨v, rfl, hyv, hkv⟩
    refine decide_eq_decide.2 ⟨fun hux => ?_, fun hvx => ?_⟩
    · exact (hall hr' v hv).resolve_right (hapart hku hkv hp hux)
    · exact (hall hr u hu).resolve_right (hapart hkv hku hp.symm hvx)

/-- The walk through a selection set with values that the frame and a fresh scope hold. -/
def walkWith (schema : Schema) (selections : List Selection) (frame : Frame) (key : Option String)
    (values : List Located) : Checking Expectation :=
  walkSet schema selections { frame with values } (.holding key values)

/-- The walk with the objects that pass a test that divides a walk comes to the tree with the objects that pass. -/
theorem Divides.outcome_walkWith {p : Located → Bool} {values : List Located}
    (h : Divides schema p selections { frame with values })
    (hw : (walkWith schema selections frame key values).outcome = .ok tree) :
    walkWith schema selections frame key (values.filter p) =
        walkSet schema selections (({ frame with values } : Frame).exchange (List.filter p))
          ((holding key values).exchange (List.filter p)) ∧
      (walkWith schema selections frame key (values.filter p)).outcome = .ok (tree.exchange (List.filter p)) := by
  have hscope : holding key (values.filter p) = (holding key values).exchange (List.filter p) :=
    holding_exchange (h.exchanges.holds selections _ .here key)
  have hwalk : walkWith schema selections frame key (values.filter p) =
      walkSet schema selections (({ frame with values } : Frame).exchange (List.filter p))
        ((holding key values).exchange (List.filter p)) := by
    rw [walkWith, hscope]
    rfl
  refine ⟨hwalk, ?_⟩
  rw [hwalk, (walkSet_exchange h.exchanges _).1]
  rw [walkWith] at hw
  rw [hw]
  rfl

/-- **The walk with objects that are apart reports what the walks with each part of them report.** -/
theorem walkWith_append (hx : ∀ x ∈ xs, kindOf x.value = .object) (hy : ∀ y ∈ ys, kindOf y.value = .object)
    (h : Apart xs ys) (hw : (walkWith schema selections frame key (xs ++ ys)).outcome = .ok tree) :
    ∃ first second, (walkWith schema selections frame key xs).outcome = .ok first ∧
      (walkWith schema selections frame key ys).outcome = .ok second ∧
      (walkWith schema selections frame key (xs ++ ys)).errors.Perm
        ((walkWith schema selections frame key xs).errors ++ (walkWith schema selections frame key ys).errors) ∧
      (extraFields tree).Perm (extraFields first ++ extraFields second) := by
  classical
  have hd : Divides schema (fun v => decide (StandsIn xs v)) selections { frame with values := xs ++ ys } :=
    h.divides hx hy rfl
  have hin : ∀ x ∈ xs, StandsIn xs x := fun x hxm => ⟨x, hxm, .refl x⟩
  have hout : ∀ y ∈ ys, ¬ StandsIn xs y := fun y hym => h.not_standsIn hx hy ⟨y, hym, .refl y⟩
  have hfirst : (xs ++ ys).filter (fun v => decide (StandsIn xs v)) = xs := by
    rw [List.filter_append, List.filter_eq_self.2 (by simpa using hin), List.filter_eq_nil_iff.2 (by simpa using hout),
      List.append_nil]
  have hsecond : (xs ++ ys).filter (fun v => !decide (StandsIn xs v)) = ys := by
    rw [List.filter_append, List.filter_eq_nil_iff.2 (by simpa using hin), List.filter_eq_self.2 (by simpa using hout),
      List.nil_append]
  obtain ⟨hwalk, ho⟩ := hd.outcome_walkWith hw
  obtain ⟨hwalk', ho'⟩ := hd.not.outcome_walkWith hw
  rw [hfirst] at hwalk ho
  rw [hsecond] at hwalk' ho'
  refine ⟨_, _, ho, ho', ?_, hd.perm_extraFields ⟨key, hw⟩⟩
  rw [hwalk, hwalk']
  exact hd.perm_errors hw

/-- A list that is a rearrangement of itself twice is empty. -/
theorem eq_nil_of_perm_append {α : Type} {l : List α} (h : l.Perm (l ++ l)) : l = [] := by
  have hlength := h.length_eq
  rw [List.length_append] at hlength
  exact List.length_eq_zero_iff.1 (by omega)

/-- The walk without objects reports nothing. -/
theorem walkWith_nil (hw : (walkWith schema selections frame key []).outcome = .ok tree) :
    (walkWith schema selections frame key []).errors = [] ∧ extraFields tree = [] := by
  have happart : Apart [] [] := by simp [Apart]
  obtain ⟨first, second, ho, ho', herrors, hextra⟩ := walkWith_append (by simp) (by simp) happart hw
  rw [hw] at ho ho'
  cases ho
  cases ho'
  exact ⟨eq_nil_of_perm_append herrors, eq_nil_of_perm_append hextra⟩

/-- **The walk with objects of which any two are apart reports what the walks with each of them report.** -/
theorem walkWith_each : ∀ {values : List Located} {tree : Expectation}, (∀ v ∈ values, kindOf v.value = .object) →
    values.Pairwise (fun u v => Apart [u] [v]) →
    (walkWith schema selections frame key values).outcome = .ok tree →
    ∃ trees, List.Forall₂ (fun v tree => (walkWith schema selections frame key [v]).outcome = .ok tree) values trees ∧
      (walkWith schema selections frame key values).errors.Perm
        (values.flatMap fun v => (walkWith schema selections frame key [v]).errors) ∧
      (extraFields tree).Perm (trees.flatMap extraFields)
  | [], tree, _, _, hw => by
    obtain ⟨herrors, hextra⟩ := walkWith_nil hw
    exact ⟨[], .nil, by rw [herrors]; exact .nil, by rw [hextra]; exact .nil⟩
  | v :: rest, tree, hv, hp, hw => by
    obtain ⟨hfirst, hrest⟩ := List.pairwise_cons.1 hp
    obtain ⟨hkind, hkinds⟩ := List.forall_mem_cons.1 hv
    have happart : Apart [v] rest := fun x hx y hy => hfirst y hy x hx y (List.mem_singleton_self y)
    obtain ⟨first, second, ho, ho', herrors, hextra⟩ := walkWith_append (by simpa using hkind) hkinds happart hw
    obtain ⟨trees, htrees, herrors', hextra'⟩ := walkWith_each hkinds hrest ho'
    refine ⟨first :: trees, .cons ho htrees, ?_, ?_⟩
    · exact herrors.trans (herrors'.append_left _)
    · exact hextra.trans (hextra'.append_left _)

/-- **A walk with all objects at once reports what walks with parts of them report**, if the parts have no object in
common, at any depth: none of them is cut off, and up to their order the mismatches and the keys that are left over are
those of the parts. So if any two of the objects are apart, these are the mismatches and the keys of each of them. -/
theorem walk_of_apart {values : List Located} (hv : ∀ v ∈ values, kindOf v.value = .object)
    (hw : (walkWith schema selections frame key values).outcome = .ok tree) :
    (∀ xs ys, values = xs ++ ys → Apart xs ys →
      ∃ first second, (walkWith schema selections frame key xs).outcome = .ok first ∧
        (walkWith schema selections frame key ys).outcome = .ok second ∧
        (walkWith schema selections frame key values).errors.Perm
          ((walkWith schema selections frame key xs).errors ++ (walkWith schema selections frame key ys).errors) ∧
        (extraFields tree).Perm (extraFields first ++ extraFields second)) ∧
    (values.Pairwise (fun u v => Apart [u] [v]) →
      ∃ trees, List.Forall₂ (fun v tree => (walkWith schema selections frame key [v]).outcome = .ok tree) values trees ∧
        (walkWith schema selections frame key values).errors.Perm
          (values.flatMap fun v => (walkWith schema selections frame key [v]).errors) ∧
        (extraFields tree).Perm (trees.flatMap extraFields)) := by
  refine ⟨fun xs ys hsplit happart => ?_, fun hp => walkWith_each hv hp hw⟩
  subst hsplit
  obtain ⟨hx, hy⟩ := List.forall_mem_append.1 hv
  exact walkWith_append hx hy happart hw

end

/-- A cat without a name and a dog that has a name, which is not selected for dogs, are checked as each of them is. -/
theorem cat_and_dog_apart :
    let frame := Frame.forField petSchema [] "Pet" none
    let selections := [plain "__typename" [], .inline (some "Cat") [] [plain "name" []]]
    let cat : Located := ⟨[.key "pets", .index 0], .obj [("__typename", .str "Cat")]⟩
    let dog : Located := ⟨[.key "pets", .index 1], .obj [("__typename", .str "Dog"), ("name", .str "Rex")]⟩
    ∃ tree first second, (walkWith petSchema selections frame none [cat, dog]).outcome = .ok tree ∧
      (walkWith petSchema selections frame none [cat]).outcome = .ok first ∧
      (walkWith petSchema selections frame none [dog]).outcome = .ok second ∧
      (walkWith petSchema selections frame none [cat, dog]).errors.Perm
        ((walkWith petSchema selections frame none [cat]).errors ++
          (walkWith petSchema selections frame none [dog]).errors) ∧
      (extraFields tree).Perm (extraFields first ++ extraFields second) := by
  intro frame selections cat dog
  have happart : Apart [cat] [dog] := apart_of_ne rfl (by decide)
  obtain ⟨tree, hw⟩ : ∃ tree, (walkWith petSchema selections frame none [cat, dog]).outcome = .ok tree :=
    exists_of_isSome_toOption (by cbv)
  obtain ⟨first, second, ho, ho', herrors, hextra⟩ := (walk_of_apart (by simp [cat, dog, kindOf]) hw).1 _ _ rfl happart
  exact ⟨tree, first, second, hw, ho, ho', herrors, hextra⟩

end FixtureCheck.Fixture
