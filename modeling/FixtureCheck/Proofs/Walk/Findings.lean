import FixtureCheck.Proofs.Response.Reordered
import Mathlib.Data.Set.Basic

/-!
# What a walk finds

A `Finding` is a mismatch, an object that a scope holds, a key that a scope expects of such an object, or that the walk
is cut off. A walk that is cut off counts as one that finds everything, so what is found by the parts of a walk is
joined by union: what a run finds is what its steps find, given the objects of the scope and its key for type names
(`found_run`). Order and repetition do not matter. Walks that find the same come to the same verdict
(`verdict_of_found_eq`).
-/

namespace FixtureCheck.Fixture

open GraphQL (Schema Document Field Selection Operation OutputField)
open Expectation

/-- What a walk can come to. -/
inductive Finding where
  /-- It is cut off. -/
  | cutOff
  /-- A mismatch is reported. -/
  | mismatch (m : Mismatch)
  /-- A scope holds an object. -/
  | holds (v : Located)
  /-- A scope that holds an object expects a key of it. -/
  | expects (v : Located) (k : String)

/-- What the scopes of a tree tell of objects. -/
def told (tree : Expectation) : Set Finding :=
  {x | ∃ scope ∈ tree.walk, ∃ v ∈ scope.objects, x = .holds v ∨ ∃ k ∈ scope.applicable v, x = .expects v k}

/-- The mismatches among findings. -/
def reports (mismatches : List Mismatch) : Set Finding := {x | ∃ m ∈ mismatches, x = .mismatch m}

/-- **What a walk finds**: everything, if it is cut off. -/
def Checking.found (walk : Checking Expectation) : Set Finding :=
  match walk.outcome with
  | .error _ => Set.univ
  | .ok tree => reports walk.errors ∪ told tree

/-- **What a step finds** for a scope that holds objects and has a key for type names. -/
def Step.found (schema : Schema) (key : Option String) (objects : List Located) : Step → Set Finding
  | .stop _ => Set.univ
  | .set .. => ∅
  | .field _ frame f selections =>
    match schema.fieldOf? (some frame.type) f.name with
    | none => Set.univ
    | some definition =>
      reports (checkAll schema frame f.key definition.type).errors ∪
        {x | ∃ v ∈ objects, (frame.condition = none ∨ MayBe v key frame.possible) ∧ x = .expects v f.key} ∪
        if selections.isEmpty then ∅ else (walkBelow schema frame f definition selections).found

/-- What steps find. -/
def foundBy (schema : Schema) (key : Option String) (objects : List Located) (steps : List Step) : Set Finding :=
  {x | ∃ s ∈ steps, x ∈ s.found schema key objects}

section

variable {schema : Schema} {key : Option String} {objects : List Located} {x : Finding}

@[simp] theorem foundBy_nil : foundBy schema key objects [] = ∅ := by
  simp [foundBy]

@[simp] theorem foundBy_cons (s : Step) (steps : List Step) :
    foundBy schema key objects (s :: steps) = s.found schema key objects ∪ foundBy schema key objects steps := by
  ext x
  simp [foundBy]

@[simp] theorem foundBy_append (steps steps' : List Step) :
    foundBy schema key objects (steps ++ steps') =
      foundBy schema key objects steps ∪ foundBy schema key objects steps' := by
  ext x
  simp only [foundBy, List.mem_append, Set.mem_ofPred_eq, Set.mem_union]
  constructor
  · rintro ⟨s, hs | hs, hx⟩
    · exact .inl ⟨s, hs, hx⟩
    · exact .inr ⟨s, hs, hx⟩
  · rintro (⟨s, hs, hx⟩ | ⟨s, hs, hx⟩)
    · exact ⟨s, .inl hs, hx⟩
    · exact ⟨s, .inr hs, hx⟩

@[simp] theorem found_set (conditions : List String) (frame : Frame) (selections : List Selection) :
    (Step.set conditions frame selections).found schema key objects = ∅ := rfl

@[simp] theorem found_stop (cause : Abort) : (Step.stop cause).found schema key objects = Set.univ := rfl

/-! ## Walks that are cut off -/

theorem cutOff_not_mem_told (tree : Expectation) : Finding.cutOff ∉ told tree := by
  rintro ⟨scope, -, v, -, h | ⟨k, -, h⟩⟩ <;> cases h

theorem cutOff_not_mem_reports (mismatches : List Mismatch) : Finding.cutOff ∉ reports mismatches := by
  rintro ⟨m, -, h⟩
  cases h

theorem Checking.cutOff_mem_found {walk : Checking Expectation} :
    .cutOff ∈ walk.found ↔ ∃ cause, walk.outcome = .error cause := by
  unfold Checking.found
  cases walk.outcome with
  | error cause => simp
  | ok tree => simp [cutOff_not_mem_told, cutOff_not_mem_reports]

/-- A walk that is cut off finds everything. -/
theorem Checking.found_eq_univ {walk : Checking Expectation} (h : .cutOff ∈ walk.found) : walk.found = Set.univ := by
  obtain ⟨cause, hc⟩ := Checking.cutOff_mem_found.1 h
  rw [Checking.found, hc]

theorem Step.cutOff_mem_found {s : Step} : .cutOff ∈ s.found schema key objects ↔ ¬ s.IsOk schema := by
  cases s with
  | stop cause => simp [Step.IsOk, Step.change]
  | set conditions frame selections => simp [Step.IsOk, Step.change]
  | field conditions frame f selections =>
    simp only [Step.found, Step.IsOk, Step.change]
    cases schema.fieldOf? (some frame.type) f.name with
    | none => simp
    | some definition =>
      cases selections with
      | nil => simp [cutOff_not_mem_reports]
      | cons first rest =>
        have hbelow := @Checking.cutOff_mem_found (walkBelow schema frame f definition (first :: rest))
        simp only [List.isEmpty_cons, Bool.false_eq_true, ↓reduceIte, Set.mem_union, cutOff_not_mem_reports,
          Set.mem_ofPred_eq, reduceCtorEq, and_false, exists_false, or_self, false_or, hbelow]
        cases (walkBelow schema frame f definition (first :: rest)).outcome with
        | error cause => simp [Except.map]
        | ok child => simp [Except.map]

theorem Step.found_eq_univ {s : Step} (h : .cutOff ∈ s.found schema key objects) :
    s.found schema key objects = Set.univ := by
  cases s with
  | stop cause => rfl
  | set conditions frame selections => cases h
  | field conditions frame f selections =>
    simp only [Step.found] at h ⊢
    cases hd : schema.fieldOf? (some frame.type) f.name with
    | none => rfl
    | some definition =>
      simp only [hd] at h ⊢
      by_cases hempty : selections.isEmpty = true
      · simp [hempty, cutOff_not_mem_reports] at h
      · rw [if_neg hempty] at h ⊢
        have hbelow : .cutOff ∈ (walkBelow schema frame f definition selections).found := by
          simpa [cutOff_not_mem_reports] using h
        rw [Checking.found_eq_univ hbelow, Set.union_univ]

theorem foundBy_eq_univ {steps : List Step} (h : .cutOff ∈ foundBy schema key objects steps) :
    foundBy schema key objects steps = Set.univ := by
  obtain ⟨s, hs, hcut⟩ := h
  refine Set.eq_univ_of_forall fun x => ⟨s, hs, ?_⟩
  rw [Step.found_eq_univ hcut]
  exact Set.mem_univ x

/-- Whether steps cut a walk off does not depend on the scope. -/
theorem cutOff_mem_foundBy {steps : List Step} :
    .cutOff ∈ foundBy schema key objects steps ↔ ∃ s ∈ steps, ¬ s.IsOk schema :=
  exists_congr fun _ => and_congr_right fun _ => Step.cutOff_mem_found

/-! ## What runs find -/

theorem mem_told {tree : Expectation} : x ∈ told tree ↔
    ∃ scope ∈ tree.walk, ∃ v ∈ scope.objects, x = .holds v ∨ ∃ k ∈ scope.applicable v, x = .expects v k := .rfl

theorem mem_reports {mismatches : List Mismatch} : x ∈ reports mismatches ↔ ∃ m ∈ mismatches, x = .mismatch m := .rfl

theorem Checking.found_of_ok {walk : Checking Expectation} {tree : Expectation} (h : walk.outcome = .ok tree) :
    walk.found = reports walk.errors ∪ told tree := by
  rw [Checking.found, h]

theorem reports_append (a b : List Mismatch) : reports (a ++ b) = reports a ∪ reports b := by
  ext x
  simp only [mem_reports, List.mem_append, Set.mem_union]
  constructor
  · rintro ⟨m, hm | hm, hx⟩
    · exact .inl ⟨m, hm, hx⟩
    · exact .inr ⟨m, hm, hx⟩
  · rintro (⟨m, hm, hx⟩ | ⟨m, hm, hx⟩)
    · exact ⟨m, .inl hm, hx⟩
    · exact ⟨m, .inr hm, hx⟩

/-- The keys that a step looks at, for the objects of a scope. -/
def Step.expected (key : Option String) (objects : List Located) : Step → Set Finding
  | .field _ frame f _ =>
    {x | ∃ v ∈ objects, (frame.condition = none ∨ MayBe v key frame.possible) ∧ x = .expects v f.key}
  | _ => ∅

theorem Step.mem_expected {s : Step} : x ∈ s.expected key objects ↔
    ∃ v ∈ objects, ∃ k, x = .expects v k ∧ (s.IsCommon k ∨ ∃ P, MayBe v key P ∧ s.IsTyped P k) := by
  cases s with
  | stop cause => simp [Step.expected, Step.IsCommon, Step.IsTyped]
  | set conditions frame selections => simp [Step.expected, Step.IsCommon, Step.IsTyped]
  | field conditions frame f selections =>
    refine exists_congr fun v => and_congr_right fun _ => ?_
    simp only [Step.IsCommon, Step.IsTyped]
    constructor
    · rintro ⟨hmay, rfl⟩
      refine ⟨f.key, rfl, ?_⟩
      by_cases hc : frame.condition = none
      · exact .inl ⟨hc, rfl⟩
      · exact .inr ⟨frame.possible, hmay.resolve_left hc, hc, rfl, rfl⟩
    · rintro ⟨k, rfl, ⟨hc, rfl⟩ | ⟨P, hmay, -, rfl, rfl⟩⟩
      · exact ⟨.inl hc, rfl⟩
      · exact ⟨.inr hmay, rfl⟩

/-- What a step of a run that is not cut off finds: its mismatches, the keys that it looks at, and what the scopes below
it tell. -/
theorem Step.mem_found {s : Step} (hs : s.IsOk schema) : x ∈ s.found schema key objects ↔
    x ∈ reports (s.errors schema) ∨ x ∈ s.expected key objects ∨ ∃ child, s.Adds schema child ∧ x ∈ told child := by
  cases s with
  | stop cause =>
    obtain ⟨change, hc⟩ := hs
    cases hc
  | set conditions frame selections => simp [Step.errors, Step.expected, Step.Adds, mem_reports]
  | field conditions frame f selections =>
    obtain ⟨change, hc⟩ := hs
    obtain ⟨definition, hd, ⟨rfl, -⟩ | ⟨hne, child, hw, -⟩⟩ := change_field hc
    · simp [Step.found, Step.errors, Step.expected, Step.Adds, hd]
    · have hempty : selections.isEmpty = false := by simpa using hne
      simp only [Step.found, Step.errors, Step.expected, Step.Adds, hd, hempty, Bool.false_eq_true, ↓reduceIte,
        Checking.found_of_ok hw, reports_append, Set.mem_union, ne_eq, hne, not_false_eq_true, true_and,
        Option.some.injEq, exists_eq_left', hw, Except.ok.injEq]
      tauto

/-- What the steps of a run tell is what the scopes of its tree tell. -/
theorem mem_told_run {steps : List Step} {e tree : Expectation} (he : e.IsFresh)
    (h : (run schema steps e).outcome = .ok tree) : x ∈ told tree ↔ (∃ v ∈ e.objects, x = .holds v) ∨ ∃ s ∈ steps,
      x ∈ s.expected (steps.findSome? Step.typenameKey?) e.objects ∨ ∃ child, s.Adds schema child ∧ x ∈ told child := by
  have hnamed : tree.typenameKey = steps.findSome? Step.typenameKey? := by
    rw [typenameKey_run h, he.typenameKey, Option.none_or]
  have hobjects := objects_run h
  have happlies : ∀ v k, k ∈ tree.applicable v ↔ ∃ s ∈ steps, s.IsCommon k ∨
      ∃ P, MayBe v (steps.findSome? Step.typenameKey?) P ∧ s.IsTyped P k := by
    intro v k
    have hnone : ∀ P, ¬ Expects e.byType P k := fun P hk => by simp [Expects, he.byType] at hk
    rw [mem_applicable_iff_expects, mem_common_run h, he.common, hnamed]
    simp only [expects_run h, hnone, false_or, NameSet.not_mem_empty]
    constructor
    · rintro (⟨s, hs, hk⟩ | ⟨P, hmay, s, hs, hk⟩)
      · exact ⟨s, hs, .inl hk⟩
      · exact ⟨s, hs, .inr ⟨P, hmay, hk⟩⟩
    · rintro ⟨s, hs, hk | ⟨P, hmay, hk⟩⟩
      · exact .inl ⟨s, hs, hk⟩
      · exact .inr ⟨P, hmay, s, hs, hk⟩
  rw [mem_told]
  constructor
  · rintro ⟨scope, hscope, v, hv, hx⟩
    rcases (mem_walk_run he h).1 hscope with rfl | ⟨s, hs, child, hadds, hm⟩
    · rw [hobjects] at hv
      rcases hx with rfl | ⟨k, hk, rfl⟩
      · exact .inl ⟨v, hv, rfl⟩
      · obtain ⟨s, hs, hsk⟩ := (happlies v k).1 hk
        exact .inr ⟨s, hs, .inl (Step.mem_expected.2 ⟨v, hv, k, rfl, hsk⟩)⟩
    · exact .inr ⟨s, hs, .inr ⟨child, hadds, scope, hm, v, hv, hx⟩⟩
  · rintro (⟨v, hv, rfl⟩ | ⟨s, hs, hx | ⟨child, hadds, scope, hm, v, hv, hx⟩⟩)
    · exact ⟨tree, (mem_walk_run he h).2 (.inl rfl), v, hobjects ▸ hv, .inl rfl⟩
    · obtain ⟨v, hv, k, rfl, hsk⟩ := Step.mem_expected.1 hx
      exact ⟨tree, (mem_walk_run he h).2 (.inl rfl), v, hobjects ▸ hv, .inr ⟨k, (happlies v k).2 ⟨s, hs, hsk⟩, rfl⟩⟩
    · exact ⟨scope, (mem_walk_run he h).2 (.inr ⟨s, hs, child, hadds, hm⟩), v, hv, hx⟩

/-- **What a run finds is what its steps find**, and the objects that its scope holds. -/
theorem found_run {steps : List Step} {e : Expectation} (he : e.IsFresh) :
    (run schema steps e).found = {x | ∃ v ∈ e.objects, x = .holds v} ∪
      foundBy schema (steps.findSome? Step.typenameKey?) e.objects steps := by
  cases h : (run schema steps e).outcome with
  | error cause =>
    have hcut : .cutOff ∈ foundBy schema (steps.findSome? Step.typenameKey?) e.objects steps := by
      rw [cutOff_mem_foundBy]
      by_contra hno
      push Not at hno
      obtain ⟨tree, hok⟩ := exists_run hno e
      rw [h] at hok
      cases hok
    rw [foundBy_eq_univ hcut, Set.union_univ, Checking.found, h]
  | ok tree =>
    have hok : ∀ s ∈ steps, s.IsOk schema := change_of_run h
    ext x
    rw [Checking.found_of_ok h, errors_run h, Set.mem_union, mem_told_run he h]
    have hfound : x ∈ foundBy schema (steps.findSome? Step.typenameKey?) e.objects steps ↔ ∃ s ∈ steps,
        x ∈ reports (s.errors schema) ∨ x ∈ s.expected (steps.findSome? Step.typenameKey?) e.objects ∨
          ∃ child, s.Adds schema child ∧ x ∈ told child :=
      exists_congr fun s => and_congr_right fun hs => Step.mem_found (hok s hs)
    have hreports : x ∈ reports (steps.flatMap (Step.errors schema)) ↔ ∃ s ∈ steps, x ∈ reports (s.errors schema) := by
      simp only [mem_reports, List.mem_flatMap]
      constructor
      · rintro ⟨m, ⟨s, hs, hm⟩, hx⟩
        exact ⟨s, hs, m, hm, hx⟩
      · rintro ⟨s, hs, m, hm, hx⟩
        exact ⟨m, ⟨s, hs, hm⟩, hx⟩
    rw [Set.mem_union, hfound, hreports]
    constructor
    · rintro (⟨s, hs, hx⟩ | hholds | ⟨s, hs, hx⟩)
      · exact .inr ⟨s, hs, .inl hx⟩
      · exact .inl hholds
      · exact .inr ⟨s, hs, .inr hx⟩
    · rintro (hholds | ⟨s, hs, hx | hx⟩)
      · exact .inr (.inl hholds)
      · exact .inl ⟨s, hs, hx⟩
      · exact .inr (.inr ⟨s, hs, hx⟩)

end

/-! ## Walks through selection sets -/

section

variable {schema : Schema}

/-- The objects of a frame that a scope takes up. -/
def Frame.objects (frame : Frame) : List Located := (holding none frame.values).objects

theorem Frame.mem_values_of_mem_objects {frame : Frame} {v : Located} (h : v ∈ frame.objects) : v ∈ frame.values := by
  rw [Frame.objects, objects_holding] at h
  exact (mem_values_of_isObject ((mem_foldl_takeUp h).resolve_left List.not_mem_nil)).1

/-- **What a walk through a set finds is what its steps find**, and the objects of its frame. -/
theorem found_walkSet {selections : List Selection} {frame : Frame} (name : Option String) :
    (walkSet schema selections frame (.holding name frame.values)).found =
      {x | ∃ v ∈ frame.objects, x = .holds v} ∪
        foundBy schema (namingKey schema selections frame) frame.objects (setSteps schema [] selections frame) := by
  have hobjects : (holding name frame.values).objects = frame.objects := by
    rw [Frame.objects, objects_holding, objects_holding]
  rw [walkSet_eq_run schema [], found_run (isFresh_holding name frame.values), hobjects]
  rfl

/-- What a walk finds after a report. -/
theorem found_report_andThen (mismatches : List Mismatch) (walk : Unit → Checking Expectation) :
    ((Checking.report mismatches).andThen walk).found = reports mismatches ∪ (walk ()).found := by
  have hout : ((Checking.report mismatches).andThen walk).outcome = (walk ()).outcome := rfl
  cases h : (walk ()).outcome with
  | error cause => rw [Checking.found, Checking.found, hout, h, Set.union_univ]
  | ok tree =>
    rw [Checking.found_of_ok (hout.trans h), Checking.found_of_ok h, Checking.errors_andThen (a := ()) rfl,
      reports_append, Set.union_assoc]
    rfl

/-! ## Verdicts -/

section

variable {walk walk' : Checking Expectation} {tree : Expectation}

theorem mismatch_mem_found (h : walk.outcome = .ok tree) {m : Mismatch} :
    .mismatch m ∈ walk.found ↔ m ∈ walk.errors := by
  rw [Checking.found_of_ok h, Set.mem_union, mem_reports, mem_told]
  simp

theorem holds_mem_found (h : walk.outcome = .ok tree) {v : Located} : .holds v ∈ walk.found ↔ v ∈ allObjects tree := by
  rw [Checking.found_of_ok h, Set.mem_union, mem_reports, mem_told, allObjects, List.mem_flatMap]
  simp

theorem expects_mem_found (h : walk.outcome = .ok tree) {v : Located} {k : String} :
    .expects v k ∈ walk.found ↔ ∃ scope ∈ tree.walk, v ∈ scope.objects ∧ k ∈ scope.applicable v := by
  rw [Checking.found_of_ok h, Set.mem_union, mem_reports, mem_told]
  simp

/-- The keys that are left over can be told from what a walk finds, if a place tells the object. -/
theorem mem_extraFields_iff (h : walk.outcome = .ok tree)
    (hplace : ∀ u ∈ allObjects tree, ∀ v ∈ allObjects tree, u.path = v.path → u = v) {k : String} :
    k ∈ extraFields tree ↔ ∃ v, .holds v ∈ walk.found ∧ k ∈ v.keys ∧ .expects v k ∉ walk.found := by
  have hexpected : ∀ v ∈ allObjects tree, (isExpected tree.walk v k = true ↔ .expects v k ∈ walk.found) := by
    intro v hv
    rw [expects_mem_found h, isExpected, List.any_eq_true]
    refine exists_congr fun scope => and_congr_right fun hs => ?_
    rw [Bool.and_eq_true, decide_eq_true_iff, Expectation.holds_iff]
    refine and_congr_left fun _ => ⟨?_, fun hmem => ⟨v, hmem, rfl⟩⟩
    rintro ⟨u, hu, hp⟩
    rwa [← hplace u (List.mem_flatMap.2 ⟨scope, hs, hu⟩) v hv hp]
  simp only [extraFields, List.mem_flatMap, List.mem_filter, Bool.not_eq_true', mem_distinctObjects hplace,
    holds_mem_found h]
  refine exists_congr fun v => and_congr_right fun hv => and_congr_right fun _ => ?_
  rw [← hexpected v hv, Bool.not_eq_true]

/-- **Walks that find the same come to the same verdict**: they are both cut off, or they find the same wrong. -/
theorem verdict_of_found_eq (h : walk.found = walk'.found)
    (hplace : ∀ tree, walk.outcome = .ok tree → ∀ u ∈ allObjects tree, ∀ v ∈ allObjects tree, u.path = v.path → u = v) :
    (CheckResult.ofWalk walk).aborted = (CheckResult.ofWalk walk').aborted ∧
      ((CheckResult.ofWalk walk).aborted = false →
        ∀ message, message ∈ (CheckResult.ofWalk walk).errors ↔ message ∈ (CheckResult.ofWalk walk').errors) := by
  cases ho : walk.outcome with
  | error cause =>
    have hcut : .cutOff ∈ walk'.found := h ▸ Checking.cutOff_mem_found.2 ⟨cause, ho⟩
    obtain ⟨cause', ho'⟩ := Checking.cutOff_mem_found.1 hcut
    have ha := (ofWalk_error ho).1
    exact ⟨ha.trans (ofWalk_error ho').1.symm, fun hno => Bool.noConfusion (ha.symm.trans hno)⟩
  | ok tree =>
    cases ho' : walk'.outcome with
    | error cause' =>
      have hcut : .cutOff ∈ walk.found := h ▸ Checking.cutOff_mem_found.2 ⟨cause', ho'⟩
      obtain ⟨cause, hc⟩ := Checking.cutOff_mem_found.1 hcut
      rw [ho] at hc
      cases hc
    | ok tree' =>
      have hplace' : ∀ u ∈ allObjects tree', ∀ v ∈ allObjects tree', u.path = v.path → u = v := by
        intro u hu v hv
        rw [← holds_mem_found ho', ← h, holds_mem_found ho] at hu hv
        exact hplace tree ho u hu v hv
      have hextra : ∀ k, k ∈ extraFields tree ↔ k ∈ extraFields tree' := by
        intro k
        rw [mem_extraFields_iff ho (hplace tree ho), mem_extraFields_iff ho' hplace', h]
      have hmismatch : ∀ m, m ∈ walk.errors ↔ m ∈ walk'.errors := by
        intro m
        rw [← mismatch_mem_found ho, ← mismatch_mem_found ho', h]
      rw [ofWalk_ok ho, ofWalk_ok ho']
      refine ⟨rfl, fun _ message => ?_⟩
      simp only [List.mem_append, List.mem_map, hextra, hmismatch]

end

end

end FixtureCheck.Fixture
