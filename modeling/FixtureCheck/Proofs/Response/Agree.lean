import FixtureCheck.Proofs.Query.Reordered
import FixtureCheck.Proofs.Response.Narrowing

/-!
# Walks through selections in another order

A step finds something for a walk: mismatches, keys that are expected, a key for type names, scopes below a field.
`Follows` says that steps come with all that other steps find, and with the same mismatches up to their order. Runs of
steps that follow each other, with one key for type names, are both cut off or both not, and their trees have scopes
that tell the same of objects (`run_of_agree`).
-/

namespace FixtureCheck.Fixture

open GraphQL (Schema Field Selection OutputField Reordered)
open Expectation

/-! ## Scopes that tell the same -/

/-- Do scopes hold the same objects and expect the same keys of objects? -/
structure Expectation.Matches (e e' : Expectation) : Prop where
  objects : e.objects = e'.objects
  applicable : ∀ v k, k ∈ e.applicable v ↔ k ∈ e'.applicable v

theorem Expectation.Matches.refl (e : Expectation) : e.Matches e := ⟨rfl, fun _ _ => .rfl⟩

theorem Expectation.Matches.trans {e e' e'' : Expectation} (h : e.Matches e') (h' : e'.Matches e'') : e.Matches e'' :=
  ⟨h.objects.trans h'.objects, fun v k => (h.applicable v k).trans (h'.applicable v k)⟩

/-- Has a tree a scope for each scope of another one, that tells the same? -/
def Expectation.Covers (tree tree' : Expectation) : Prop :=
  ∀ scope ∈ tree'.walk, ∃ scope' ∈ tree.walk, scope.Matches scope'

theorem mem_applicable_iff_expects {e : Expectation} {v : Located} {k : String} : k ∈ e.applicable v ↔
    k ∈ e.common ∨ ∃ P, MayBe v e.typenameKey P ∧ Expects e.byType P k := by
  rw [mem_applicable]
  refine or_congr_right ⟨?_, ?_⟩
  · rintro ⟨entry, hm, hmay, hk⟩
    exact ⟨entry.possible, hmay, entry, hm, rfl, hk⟩
  · rintro ⟨P, hmay, entry, hm, rfl, hk⟩
    exact ⟨entry, hm, hmay, hk⟩

/-! ## Steps that find the same -/

section

variable {schema : Schema}

/-- Does a step not cut a walk off? -/
def Step.IsOk (schema : Schema) (step : Step) : Prop := ∃ change, step.change schema = .ok change

/-- Is a scope in the tree below the field of a step? -/
def Step.HasBelow (schema : Schema) (scope : Expectation) (step : Step) : Prop :=
  ∃ child, step.Adds schema child ∧ scope ∈ child.walk

/-- Do steps find what a step finds: the keys that it looks at, its key for type names and the scopes below it? -/
structure FoundIn (schema : Schema) (steps : List Step) (step : Step) : Prop where
  common : ∀ k, step.IsCommon k → ∃ s ∈ steps, s.IsCommon k
  typed : ∀ P k, step.IsTyped P k → ∃ s ∈ steps, s.IsTyped P k
  named : ∀ key, step.typenameKey? = some key → ∃ s ∈ steps, s.typenameKey? = some key
  below : ∀ scope, step.HasBelow schema scope →
    ∃ s ∈ steps, ∃ scope', s.HasBelow schema scope' ∧ scope.Matches scope'

/-- **Do steps follow others**: find what these find, cut a walk off if these do, and report the same mismatches? -/
structure Follows (schema : Schema) (steps steps' : List Step) : Prop where
  found : ∀ s ∈ steps', FoundIn schema steps s
  ok : (∀ s ∈ steps', s.IsOk schema) → ∀ s ∈ steps, s.IsOk schema
  errors : (∀ s ∈ steps', s.IsOk schema) →
    (steps.flatMap (Step.errors schema)).Perm (steps'.flatMap (Step.errors schema))

theorem FoundIn.of_mem {steps : List Step} {step : Step} (h : step ∈ steps) : FoundIn schema steps step :=
  ⟨fun _ hk => ⟨step, h, hk⟩, fun _ _ hk => ⟨step, h, hk⟩, fun _ hk => ⟨step, h, hk⟩,
    fun scope hb => ⟨step, h, scope, hb, .refl scope⟩⟩

theorem FoundIn.trans {steps steps' : List Step} {step : Step} (h : FoundIn schema steps' step)
    (h' : ∀ s ∈ steps', FoundIn schema steps s) : FoundIn schema steps step := by
  refine ⟨fun k hk => ?_, fun P k hk => ?_, fun key hk => ?_, fun scope hb => ?_⟩
  · obtain ⟨s, hs, hk⟩ := h.common k hk
    exact (h' s hs).common k hk
  · obtain ⟨s, hs, hk⟩ := h.typed P k hk
    exact (h' s hs).typed P k hk
  · obtain ⟨s, hs, hk⟩ := h.named key hk
    exact (h' s hs).named key hk
  · obtain ⟨s, hs, scope', hb, hm⟩ := h.below scope hb
    obtain ⟨s', hs', scope'', hb', hm'⟩ := (h' s hs).below scope' hb
    exact ⟨s', hs', scope'', hb', hm.trans hm'⟩

namespace Follows

variable {steps steps' steps'' : List Step}

theorem of_perm (h : steps.Perm steps') : Follows schema steps steps' :=
  ⟨fun _ hs => .of_mem (h.mem_iff.2 hs), fun hok s hs => hok s (h.mem_iff.1 hs), fun _ => h.flatMap_right _⟩

theorem trans (h : Follows schema steps steps') (h' : Follows schema steps' steps'') : Follows schema steps steps'' :=
  ⟨fun s hs => (h'.found s hs).trans h.found, fun hok => h.ok (h'.ok hok),
    fun hok => (h.errors (h'.ok hok)).trans (h'.errors hok)⟩

theorem append {a a' b b' : List Step} (h : Follows schema a a') (h' : Follows schema b b') :
    Follows schema (a ++ b) (a' ++ b') := by
  have hleft : ∀ {P : Step → Prop}, (∀ s ∈ a' ++ b', P s) → (∀ s ∈ a', P s) ∧ ∀ s ∈ b', P s :=
    fun hall => List.forall_mem_append.1 hall
  refine ⟨fun s hs => ?_, fun hok => ?_, fun hok => ?_⟩
  · rcases List.mem_append.1 hs with hs | hs
    · exact (h.found s hs).trans fun s hs => .of_mem (List.mem_append_left _ hs)
    · exact (h'.found s hs).trans fun s hs => .of_mem (List.mem_append_right _ hs)
  · exact List.forall_mem_append.2 ⟨h.ok (hleft hok).1, h'.ok (hleft hok).2⟩
  · rw [List.flatMap_append, List.flatMap_append]
    exact (h.errors (hleft hok).1).append (h'.errors (hleft hok).2)

end Follows

/-- Do steps follow each other? -/
def Agree (schema : Schema) (steps steps' : List Step) : Prop :=
  Follows schema steps steps' ∧ Follows schema steps' steps

namespace Agree

variable {steps steps' steps'' : List Step}

theorem symm (h : Agree schema steps steps') : Agree schema steps' steps := ⟨h.2, h.1⟩

theorem of_perm (h : steps.Perm steps') : Agree schema steps steps' := ⟨.of_perm h, .of_perm h.symm⟩

theorem refl (steps : List Step) : Agree schema steps steps := of_perm (.refl steps)

theorem trans (h : Agree schema steps steps') (h' : Agree schema steps' steps'') : Agree schema steps steps'' :=
  ⟨h.1.trans h'.1, h'.2.trans h.2⟩

theorem append {a a' b b' : List Step} (h : Agree schema a a') (h' : Agree schema b b') :
    Agree schema (a ++ b) (a' ++ b') := ⟨h.1.append h'.1, h.2.append h'.2⟩

end Agree

/-! ## Runs that agree -/

/-- Have the steps no key for type names but `K`? -/
def AreNamedBy (K : String) (steps : List Step) : Prop := ∀ s ∈ steps, ∀ key, s.typenameKey? = some key → key = K

theorem AreNamedBy.of_follows {K : String} {steps steps' : List Step} (h : Follows schema steps steps')
    (hn : AreNamedBy K steps) : AreNamedBy K steps' := by
  intro s hs key hk
  obtain ⟨s', hs', hk'⟩ := (h.found s hs).named key hk
  exact hn s' hs' key hk'

/-- Where there is but one thing to be found, it is found first. -/
theorem findSome?_eq_some_iff_of_unique {α β : Type} {f : α → Option β} {K : β} {as : List α}
    (h : ∀ a ∈ as, ∀ b, f a = some b → b = K) {b : β} : as.findSome? f = some b ↔ ∃ a ∈ as, f a = some b := by
  constructor
  · exact List.exists_of_findSome?_eq_some
  · rintro ⟨a, ha, hb⟩
    cases hf : as.findSome? f with
    | none =>
      have hnone := List.findSome?_eq_none_iff.1 hf a ha
      rw [hb] at hnone
      cases hnone
    | some b' =>
      obtain ⟨a', ha', hb'⟩ := List.exists_of_findSome?_eq_some hf
      rw [h a ha b hb, h a' ha' b' hb']

theorem exists_run {steps : List Step} : (∀ s ∈ steps, s.IsOk schema) → ∀ e : Expectation,
    ∃ e', (run schema steps e).outcome = .ok e' := by
  induction steps with
  | nil => exact fun _ e => ⟨e, rfl⟩
  | cons step rest ih =>
    intro h e
    obtain ⟨hstep, hrest⟩ := List.forall_mem_cons.1 h
    obtain ⟨change, hc⟩ := hstep
    obtain ⟨e', he'⟩ := ih hrest (change e)
    exact ⟨e', outcome_run_cons.2 ⟨change, hc, he'⟩⟩

/-- The scopes of a tree that is built from nothing are its own and those below the fields of the steps. -/
theorem mem_walk_run {steps : List Step} {e tree scope : Expectation} (he : e.IsFresh)
    (h : (run schema steps e).outcome = .ok tree) :
    scope ∈ tree.walk ↔ scope = tree ∨ ∃ s ∈ steps, s.HasBelow schema scope := by
  rw [mem_walk]
  refine or_congr_right ?_
  simp only [mem_children_run h, he.children, List.not_mem_nil, false_or]
  constructor
  · rintro ⟨child, ⟨s, hs, hadds⟩, hm⟩
    exact ⟨s, hs, child, hadds, hm⟩
  · rintro ⟨s, hs, child, hadds, hm⟩
    exact ⟨child, ⟨s, hs, hadds⟩, hm⟩

/-- The trees that steps build from nothing tell the same at the top if the steps agree. -/
theorem matches_run {K : String} {steps steps' : List Step} (h : Agree schema steps steps') (hn : AreNamedBy K steps)
    {e tree tree' : Expectation} (he : e.IsFresh) (hw : (run schema steps e).outcome = .ok tree)
    (hw' : (run schema steps' e).outcome = .ok tree') : tree.Matches tree' := by
  have hcommon : ∀ k, k ∈ tree.common ↔ k ∈ tree'.common := by
    intro k
    rw [mem_common_run hw, mem_common_run hw']
    refine or_congr_right ⟨?_, ?_⟩
    · rintro ⟨s, hs, hk⟩
      exact (h.2.found s hs).common k hk
    · rintro ⟨s, hs, hk⟩
      exact (h.1.found s hs).common k hk
  have htyped : ∀ P k, Expects tree.byType P k ↔ Expects tree'.byType P k := by
    intro P k
    rw [expects_run hw, expects_run hw']
    refine or_congr_right ⟨?_, ?_⟩
    · rintro ⟨s, hs, hk⟩
      exact (h.2.found s hs).typed P k hk
    · rintro ⟨s, hs, hk⟩
      exact (h.1.found s hs).typed P k hk
  have hnamed : tree.typenameKey = tree'.typenameKey := by
    rw [typenameKey_run hw, typenameKey_run hw', he.typenameKey]
    refine Option.ext fun key => ?_
    rw [Option.none_or, Option.none_or, findSome?_eq_some_iff_of_unique hn,
      findSome?_eq_some_iff_of_unique (hn.of_follows h.1)]
    constructor
    · rintro ⟨s, hs, hk⟩
      exact (h.2.found s hs).named key hk
    · rintro ⟨s, hs, hk⟩
      exact (h.1.found s hs).named key hk
  refine ⟨by rw [objects_run hw, objects_run hw'], fun v k => ?_⟩
  simp only [mem_applicable_iff_expects, hcommon, htyped, hnamed]

/-- **Runs of steps that agree are both cut off or both not**; if they are not, they report the same mismatches up to
their order, and each tree covers the other. -/
theorem run_of_agree {K : String} {steps steps' : List Step} (h : Agree schema steps steps') (hn : AreNamedBy K steps)
    {e tree : Expectation} (he : e.IsFresh) (hw : (run schema steps e).outcome = .ok tree) :
    ∃ tree', (run schema steps' e).outcome = .ok tree' ∧
      (run schema steps e).errors.Perm (run schema steps' e).errors ∧ tree'.Covers tree ∧ tree.Covers tree' := by
  have hok : ∀ s ∈ steps, s.IsOk schema := change_of_run hw
  obtain ⟨tree', hw'⟩ := exists_run (h.2.ok hok) e
  have hroot := matches_run h hn he hw hw'
  have hroot' := matches_run h.symm (hn.of_follows h.1) he hw' hw
  refine ⟨tree', hw', ?_, fun scope hs => ?_, fun scope hs => ?_⟩
  · rw [errors_run hw, errors_run hw']
    exact h.1.errors (h.2.ok hok)
  · rcases (mem_walk_run he hw).1 hs with rfl | ⟨s, hs, hb⟩
    · exact ⟨tree', (mem_walk_run he hw').2 (.inl rfl), hroot⟩
    · obtain ⟨s', hs', scope', hb', hm⟩ := (h.2.found s hs).below scope hb
      exact ⟨scope', (mem_walk_run he hw').2 (.inr ⟨s', hs', hb'⟩), hm⟩
  · rcases (mem_walk_run he hw').1 hs with rfl | ⟨s, hs, hb⟩
    · exact ⟨tree, (mem_walk_run he hw).2 (.inl rfl), hroot'⟩
    · obtain ⟨s', hs', scope', hb', hm⟩ := (h.1.found s hs).below scope hb
      exact ⟨scope', (mem_walk_run he hw).2 (.inr ⟨s', hs', hb'⟩), hm⟩

end

end FixtureCheck.Fixture
