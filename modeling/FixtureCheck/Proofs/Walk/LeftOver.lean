import FixtureCheck.Proofs.Response.Reordered
import FixtureCheck.Proofs.Walk.TypeNames

/-!
# Keys that are checked, left over, or neither

A walk looks at the fields met in a set on the objects that the fragments around them let in; the check for keys that
are left over has the fields of all fragments for which the scope knows no reason to leave them out. The first goes by
the key for type names that each set has, the second by the one key of the scope. So a key of an object is checked or
left over, unless a fragment turns the object away for the type that it names under another key than that of the scope
(`keys_are_checked_or_left_over`). There are keys that are neither (`unchecked_key_not_left_over`).
-/

namespace FixtureCheck.Fixture

open GraphQL (Schema Document Selection Operation OutputField)
open Expectation

/-! ## Keys that are left over -/

/-- The keys that nothing in a tree expects, each with the object that has it. -/
def leftOver (root : Expectation) : List (Located × String) :=
  (distinctObjects root).flatMap fun object => (object.keys.filter (!isExpected root.walk object ·)).map (object, ·)

theorem map_snd_leftOver (root : Expectation) : (leftOver root).map Prod.snd = extraFields root := by
  simp only [leftOver, extraFields, List.map_flatMap, List.map_map, Function.comp_def, List.map_id']

section

variable {tree : Expectation} {v : Located} {k : String}

theorem mem_leftOver (hplace : ∀ u ∈ allObjects tree, ∀ v ∈ allObjects tree, u.path = v.path → u = v) :
    (v, k) ∈ leftOver tree ↔ v ∈ allObjects tree ∧ k ∈ v.keys ∧ isExpected tree.walk v k = false := by
  rw [← mem_distinctObjects hplace]
  simp only [leftOver, List.mem_flatMap, List.mem_map, List.mem_filter, Prod.mk.injEq, Bool.not_eq_true']
  constructor
  · rintro ⟨object, hobject, key, ⟨hkey, hno⟩, rfl, rfl⟩
    exact ⟨hobject, hkey, hno⟩
  · rintro ⟨hobject, hkey, hno⟩
    exact ⟨v, hobject, k, ⟨hkey, hno⟩, rfl, rfl⟩

end

/-! ## Fields and the objects that fragments let in -/

/-- Do steps look at a field on an object? -/
def LooksOn (steps : List Step) (m : Met) (v : Located) : Prop :=
  ∃ narrowed, Step.field m.conditions narrowed m.field m.selections ∈ steps ∧ v ∈ narrowed.values

/-- Do steps come to a fragment around a field that turns an object away, for the type that the object names under a
key: it is none of the types of the fragment? -/
def TurnsAway (schema : Schema) (steps : List Step) (m : Met) (v : Located) (key : String) : Prop :=
  ∃ conditions inner set condition directives sub type, Step.set conditions inner set ∈ steps ∧
    .inline (some condition) directives sub ∈ set ∧ m ∈ metIn (conditions ++ [condition]) sub ∧ v ∈ inner.values ∧
    inner.typenameKey = some key ∧ typename? v.value (some key) = some type ∧
    type ∉ narrow schema inner.possible (some condition)

section

variable {schema : Schema} {steps steps' : List Step} {m : Met} {v : Located} {key : String}

theorem LooksOn.mono (h : LooksOn steps m v) (hsub : steps ⊆ steps') : LooksOn steps' m v := by
  obtain ⟨narrowed, hstep, hv⟩ := h
  exact ⟨narrowed, hsub hstep, hv⟩

theorem TurnsAway.mono (h : TurnsAway schema steps m v key) (hsub : steps ⊆ steps') :
    TurnsAway schema steps' m v key := by
  obtain ⟨conditions, inner, set, condition, directives, sub, type, hset, hrest⟩ := h
  exact ⟨conditions, inner, set, condition, directives, sub, type, hsub hset, hrest⟩

/-- An object that does not enter a fragment names a type under the key of the set. -/
theorem exists_type_of_not_mem_enter {frame : Frame} {condition : String} (hv : v ∈ frame.values)
    (hout : v ∉ (frame.enter schema (some condition)).values) :
    ∃ key type, frame.typenameKey = some key ∧ typename? v.value (some key) = some type ∧
      type ∉ narrow schema frame.possible (some condition) := by
  have hunreached : Frame.isReached frame.typenameKey (narrow schema frame.possible (some condition)) v ≠ true :=
    fun hreached => hout (List.mem_filter.2 ⟨hv, hreached⟩)
  rw [ne_eq, isReached_iff, MayBe] at hunreached
  push Not at hunreached
  obtain ⟨type, htype, hno⟩ := hunreached
  cases hkey : frame.typenameKey with
  | none =>
    rw [hkey] at htype
    cases htype
  | some key =>
    rw [hkey] at htype
    exact ⟨key, type, rfl, htype, hno⟩

theorem setSteps_cons_of_not_stop {conditions : List String} {first : Selection} {rest : List Selection}
    {frame : Frame} (h : ∀ cause, Step.stop cause ∉ setSteps schema conditions (first :: rest) frame) :
    setSteps schema conditions (first :: rest) frame =
      .set conditions (frame.inSet (first :: rest)) (first :: rest) ::
        selectionsSteps schema conditions (first :: rest) (frame.inSet (first :: rest)) := by
  rw [setSteps] at h ⊢
  by_cases hl : lacksTypename schema frame (first :: rest) = true
  · rw [if_pos hl] at h
    exact absurd (List.mem_singleton_self _) (h (.missingTypename frame.type))
  · rw [if_neg hl, selectionsSteps]

/-- Do steps look at a field on an object, or come to a fragment around the field that turns the object away; or is it a
fragment of the set itself, in its frame, that does not let the object in? -/
def IsMetOn (schema : Schema) (conditions : List String) (frame : Frame) (set : List Selection) (steps : List Step)
    (m : Met) (v : Located) : Prop :=
  LooksOn steps m v ∨ (∃ key, TurnsAway schema steps m v key) ∨
    ∃ condition directives sub, .inline (some condition) directives sub ∈ set ∧
      m ∈ metIn (conditions ++ [condition]) sub ∧ v ∉ (frame.enter schema (some condition)).values

theorem IsMetOn.mono {conditions : List String} {frame : Frame} {set : List Selection}
    (h : IsMetOn schema conditions frame set steps m v) (hsub : steps ⊆ steps') :
    IsMetOn schema conditions frame set steps' m v := by
  rcases h with hlooks | ⟨key, haway⟩ | hout
  · exact .inl (hlooks.mono hsub)
  · exact .inr (.inl ⟨key, haway.mono hsub⟩)
  · exact .inr (.inr hout)

mutual

/-- **Each field met in a set is looked at on each object of the frame that no fragment around it turns away.** -/
theorem looksOn_or_turnsAway {conditions : List String} {frame : Frame} (hv : v ∈ frame.values) :
    ∀ {selections : List Selection}, (∀ cause, Step.stop cause ∉ setSteps schema conditions selections frame) →
      m ∈ metIn conditions selections → LooksOn (setSteps schema conditions selections frame) m v ∨
        ∃ key, TurnsAway schema (setSteps schema conditions selections frame) m v key
  | [], _, hm => by simp [metIn] at hm
  | first :: rest, hstop, hm => by
    have hsteps := setSteps_cons_of_not_stop hstop
    rw [selectionsSteps] at hsteps
    rw [hsteps] at hstop ⊢
    simp only [List.mem_cons, List.mem_append, not_or] at hstop
    have hv' : v ∈ (frame.inSet (first :: rest)).values := by
      rw [Frame.values_inSet]
      exact hv
    have hmet : IsMetOn schema conditions (frame.inSet (first :: rest)) (first :: rest)
        (selectionSteps schema conditions first (frame.inSet (first :: rest)) ++
          selectionsSteps schema conditions rest (frame.inSet (first :: rest))) m v := by
      rw [metIn, List.mem_append] at hm
      rcases hm with hm | hm
      · have hmem : first ∈ first :: rest := List.mem_cons_self
        exact (isMetOn_selection hv' hmem (fun c => (hstop c).2.1) hm).mono (List.subset_append_left ..)
      · have hsub : rest ⊆ first :: rest := List.subset_cons_self first rest
        exact (isMetOn_selections hv' hsub (fun c => (hstop c).2.2) hm).mono (List.subset_append_right ..)
    rcases hmet with hlooks | ⟨key, haway⟩ | ⟨condition, directives, sub, hmem, hin, hout⟩
    · exact .inl (hlooks.mono (List.subset_cons_self ..))
    · exact .inr ⟨key, haway.mono (List.subset_cons_self ..)⟩
    · obtain ⟨key, type, hkey, htype, hno⟩ := exists_type_of_not_mem_enter hv' hout
      exact .inr ⟨key, conditions, _, _, condition, directives, sub, type, List.mem_cons_self, hmem, hin, hv', hkey,
        htype, hno⟩

theorem isMetOn_selections {conditions : List String} {frame : Frame} {set : List Selection}
    (hv : v ∈ frame.values) : ∀ {selections : List Selection}, selections ⊆ set →
      (∀ cause, Step.stop cause ∉ selectionsSteps schema conditions selections frame) →
      m ∈ metIn conditions selections →
        IsMetOn schema conditions frame set (selectionsSteps schema conditions selections frame) m v
  | [], _, _, hm => by simp [metIn] at hm
  | first :: rest, hset, hstop, hm => by
    obtain ⟨hfirst, hrest⟩ := List.cons_subset.1 hset
    rw [selectionsSteps] at hstop ⊢
    simp only [List.mem_append, not_or] at hstop
    rw [metIn, List.mem_append] at hm
    rcases hm with hm | hm
    · exact (isMetOn_selection hv hfirst (fun c => (hstop c).1) hm).mono (List.subset_append_left ..)
    · exact (isMetOn_selections hv hrest (fun c => (hstop c).2) hm).mono (List.subset_append_right ..)

theorem isMetOn_selection {conditions : List String} {frame : Frame} {set : List Selection}
    (hv : v ∈ frame.values) : ∀ {selection : Selection}, selection ∈ set →
      (∀ cause, Step.stop cause ∉ selectionSteps schema conditions selection frame) →
      m ∈ metAt conditions selection →
        IsMetOn schema conditions frame set (selectionSteps schema conditions selection frame) m v
  | .field f selections, _, _, hm => by
    rw [metAt, List.mem_singleton] at hm
    subst hm
    rw [selectionSteps]
    exact .inl ⟨frame, List.mem_singleton_self _, hv⟩
  | .spread .., _, _, hm => by simp [metAt] at hm
  | .inline condition directives sub, hset, hstop, hm => by
    rw [selectionSteps] at hstop ⊢
    rw [metAt] at hm
    cases hknown : condition.filter fun name => (schema.type? name).isNone with
    | some name => simp [hknown] at hstop
    | none =>
      simp only [hknown] at hstop ⊢
      by_cases hin : v ∈ (frame.enter schema condition).values
      · rcases looksOn_or_turnsAway hin hstop hm with hlooks | haway
        · exact .inl hlooks
        · exact .inr (.inl haway)
      · cases condition with
        | none => exact absurd hv hin
        | some condition => exact .inr (.inr ⟨condition, directives, sub, hset, hm, hin⟩)

end

mutual

theorem conditions_prefix_of_mem_metIn {conditions : List String} :
    ∀ {selections : List Selection}, m ∈ metIn conditions selections → conditions <+: m.conditions
  | [], h => by simp [metIn] at h
  | first :: rest, h => by
    rw [metIn, List.mem_append] at h
    rcases h with h | h
    · exact conditions_prefix_of_mem_metAt h
    · exact conditions_prefix_of_mem_metIn h

theorem conditions_prefix_of_mem_metAt {conditions : List String} :
    ∀ {selection : Selection}, m ∈ metAt conditions selection → conditions <+: m.conditions
  | .field f selections, h => by
    rw [metAt, List.mem_singleton] at h
    subst h
    exact List.prefix_rfl
  | .spread .., h => by simp [metAt] at h
  | .inline condition _ selections, h => by
    rw [metAt] at h
    exact (List.prefix_append conditions condition.toList).trans (conditions_prefix_of_mem_metIn h)

end

/-- An object that a fragment turns away has none of the types of the fields in it, by the key of the fragment. -/
theorem TurnsAway.not_mayBe {selections : List Selection} {frame : Frame} {declared : String} {objects : List Located}
    (hf : frame.IsAt schema declared objects []) (h : TurnsAway schema (setSteps schema [] selections frame) m v key) :
    m.conditions ≠ [] ∧ ¬ MayBe v (some key) (m.possible schema declared) := by
  obtain ⟨conditions, inner, set, condition, directives, sub, type, hset, -, hm, -, -, htype, hno⟩ := h
  have hstarts := conditions_prefix_of_mem_metIn hm
  constructor
  · intro hnil
    rw [hnil, List.prefix_nil] at hstarts
    simp at hstarts
  · intro hmay
    have hat : inner.IsAt schema declared objects conditions := isAt_of_mem_setSteps rfl hf hset
    obtain ⟨hdeclared, hall⟩ := mem_narrowAll.1 (hmay type htype)
    apply hno
    rw [hat.possible, ← narrowAll_append, mem_narrowAll]
    exact ⟨hdeclared, fun c hc => hall c (hstarts.subset hc)⟩

end

/-! ## Checks of keys -/

section

variable {schema : Schema} {top selections : List Selection} {start frame : Frame} {tree : Expectation}

theorem errors_walkSet {e e' : Expectation} (h : (walkSet schema top start e).outcome = .ok e') :
    (walkSet schema top start e).errors = (setSteps schema [] top start).flatMap (Step.errors schema) := by
  rw [walkSet_eq_run schema []] at h ⊢
  exact errors_run h

/-- What is found in a set that a walk reaches is among what the walk finds. -/
theorem Reaches.errors_subset (hb : Builds schema top start tree) (hr : Reaches schema top start selections frame) :
    (setSteps schema [] selections frame).flatMap (Step.errors schema) ⊆
      (setSteps schema [] top start).flatMap (Step.errors schema) := by
  induction hr with
  | here => exact fun _ h => h
  | @field selections frame narrowed m definition reached looks nonempty ih =>
    intro mismatch hm
    apply ih
    refine List.mem_flatMap.2 ⟨_, looks.step, ?_⟩
    obtain ⟨scope, -, hscope⟩ := exists_mem_walk_of_reaches hb reached
    obtain ⟨e, he⟩ := hscope.outcome
    obtain ⟨child, hchild⟩ := looks.builds nonempty he
    have hbelow : mismatch ∈ (walkBelow schema narrowed m.field definition m.selections).errors := by
      rw [walkBelow] at hchild ⊢
      rw [errors_walkSet hchild]
      exact hm
    have hempty : m.selections.isEmpty = false := by simpa using nonempty
    simp only [Step.errors, looks.known, hempty, Bool.false_eq_true, ↓reduceIte]
    exact List.mem_append_right _ hbelow

/-- **Does a walk check a key of an object**: does it look at a field with the key on the object, in a set that it
reaches, and report the mismatches that it finds there? -/
def IsChecked (schema : Schema) (top : List Selection) (start : Frame) (reported : List Mismatch) (v : Located)
    (k : String) : Prop :=
  ∃ selections frame narrowed m definition, Reaches schema top start selections frame ∧
    LooksAt schema selections frame narrowed m definition ∧ v ∈ narrowed.values ∧ m.field.key = k ∧
    (checkField schema narrowed k definition.type v).errors ⊆ reported

/-- **Is a key of an object selected for it, but out of its reach**: by a field of a set that a walk reaches, under
conditions that the object may meet for all that the set knows, but below a fragment that turns it away by another key
for type names? -/
def IsOutOfReach (schema : Schema) (top : List Selection) (start : Frame) (v : Located) (k : String) : Prop :=
  ∃ selections frame m key, Reaches schema top start selections frame ∧ v ∈ frame.values ∧ m ∈ metIn [] selections ∧
    m.field.key = k ∧ MayBe v (namingKey schema selections frame) (m.possible schema frame.type) ∧
    TurnsAway schema (setSteps schema [] selections frame) m v key ∧ namingKey schema selections frame ≠ some key

theorem isChecked_of_looksOn {e e' : Expectation} {scope : Expectation} {m : Met} {v : Located}
    (h : (walkSet schema top start e).outcome = .ok e') (hb : Builds schema top start tree)
    (hr : Reaches schema top start selections frame) (hscope : Builds schema selections frame scope)
    (hl : LooksOn (setSteps schema [] selections frame) m v) :
    IsChecked schema top start (walkSet schema top start e).errors v m.field.key := by
  obtain ⟨narrowed, hstep, hv⟩ := hl
  obtain ⟨e₁, he₁⟩ := hscope.outcome
  rw [walkSet_eq_run schema []] at he₁
  obtain ⟨change, hchange⟩ := change_of_run he₁ _ hstep
  obtain ⟨definition, hknown, -⟩ := change_field hchange
  refine ⟨selections, frame, narrowed, m, definition, hr, ⟨hstep, hknown⟩, hv, rfl, fun mismatch hm => ?_⟩
  rw [errors_walkSet h]
  apply hr.errors_subset hb
  refine List.mem_flatMap.2 ⟨_, hstep, ?_⟩
  simp only [Step.errors, hknown]
  refine List.mem_append_left _ ?_
  rw [checkAll_eq]
  exact List.mem_flatMap.2 ⟨v, hv, hm⟩

theorem Reaches.isAt (hstart : start.IsAt schema start.type start.values [])
    (hr : Reaches schema top start selections frame) : frame.IsAt schema frame.type frame.values [] := by
  cases hr with
  | here => exact hstart
  | field => exact Frame.isAt_forField ..

/-- **Each key that a walk's tree expects of an object is checked on it, or out of its reach.** -/
theorem isChecked_or_isOutOfReach {v : Located} {k : String} {e e' : Expectation}
    (h : (walkSet schema top start e).outcome = .ok e') (hb : Builds schema top start tree)
    (hstart : start.IsAt schema start.type start.values [])
    (hplace : ∀ scope ∈ tree.walk, scope.holds v = true → v ∈ scope.objects)
    (hk : isExpected tree.walk v k = true) :
    IsChecked schema top start (walkSet schema top start e).errors v k ∨ IsOutOfReach schema top start v k := by
  obtain ⟨scope, hs, hboth⟩ := List.any_eq_true.1 hk
  obtain ⟨hholds, happlies⟩ := Bool.and_eq_true_iff.1 hboth
  obtain ⟨selections, frame, hr, hscope⟩ := exists_reaches_of_mem_walk hb hs
  have hat := hr.isAt hstart
  have hv : v ∈ frame.values := (hscope.object_of_mem (hplace scope hs hholds)).1
  obtain ⟨m, hm, rfl, hmay⟩ := (hscope.mem_applicable hat).1 (of_decide_eq_true happlies)
  rcases looksOn_or_turnsAway hv hscope.not_stop hm with hlooks | ⟨key, haway⟩
  · exact .inl (isChecked_of_looksOn h hb hr hscope hlooks)
  · obtain ⟨hconditions, hnot⟩ := haway.not_mayBe hat
    have hmay' := hmay.resolve_left hconditions
    exact .inr ⟨selections, frame, m, key, hr, hv, hm, rfl, hmay', haway, fun hkey => hnot (hkey ▸ hmay')⟩

end

/-! ## Checks of fixtures -/

/-- **No key of an object is passed over but those out of reach.** Where a check is not aborted, each key of each object
in the scopes of the walk is checked, or is reported to be left over, or is selected for the object by a field that is
out of its reach, for the object names another type under another key. -/
theorem keys_are_checked_or_left_over {schema : Schema} {document : Document} {name : Option String} {fixture : Json}
    {result : CheckResult} (hc : check schema document fixture name = .ok result) (hna : result.aborted = false) :
    ∃ operation root tree, Compares schema document name operation root ∧
      (walkOperation schema root operation fixture).outcome = .ok tree ∧
      result.errors = (walkOperation schema root operation fixture).errors.map Mismatch.message ++
        (leftOver tree).map (fun p => (Mismatch.extraField p.2).message) ∧
      ∀ scope ∈ tree.walk, ∀ v ∈ scope.objects, ∀ k ∈ v.keys,
        IsChecked schema operation.selections (startFrame schema root fixture)
            (walkOperation schema root operation fixture).errors v k ∨
          (v, k) ∈ leftOver tree ∨
          IsOutOfReach schema operation.selections (startFrame schema root fixture) v k := by
  obtain ⟨operation, root, hcompares, rfl⟩ := check_eq_ok_iff.1 hc
  cases ht : (walkOperation schema root operation fixture).outcome with
  | error cause =>
    rw [(ofWalk_error ht).1] at hna
    cases hna
  | ok tree =>
    refine ⟨operation, root, tree, hcompares, ht, ?_, fun scope hs v hv k hk => ?_⟩
    · rw [ofWalk_ok ht, ← map_snd_leftOver, List.map_map]
      rfl
    have hwalk : (walkSet schema operation.selections (startFrame schema root fixture)
        (.holding none (rootValues fixture))).outcome = .ok tree := ht
    have hb : Builds schema operation.selections (startFrame schema root fixture) tree := ⟨none, hwalk⟩
    have hin : ∀ o ∈ allObjects tree, o.IsIn fixture :=
      fun o ho => isIn_of_mem_allObjects hb (fun u hu => isIn_of_mem_rootValues hu) ho
    have hplace : ∀ u ∈ allObjects tree, ∀ o ∈ allObjects tree, u.path = o.path → u = o :=
      fun u hu o ho => Located.eq_of_path (hin u hu) (hin o ho)
    have hall : v ∈ allObjects tree := List.mem_flatMap.2 ⟨scope, hs, hv⟩
    by_cases hexpected : isExpected tree.walk v k = true
    · have hholds : ∀ scope ∈ tree.walk, scope.holds v = true → v ∈ scope.objects := by
        intro scope' hs' hheld
        obtain ⟨u, hu, hp⟩ := Expectation.holds_iff.1 hheld
        rwa [← hplace u (List.mem_flatMap.2 ⟨scope', hs', hu⟩) v hall hp]
      rcases isChecked_or_isOutOfReach hwalk hb (Frame.isAt_forField ..) hholds hexpected with hchecked | hout
      · obtain ⟨selections, frame, narrowed, m, definition, hr, hl, hv', hkey, herrors⟩ := hchecked
        refine .inl ⟨selections, frame, narrowed, m, definition, hr, hl, hv', hkey, fun mismatch hm => ?_⟩
        rw [walkOperation_eq, Checking.errors_andThen (a := ()) rfl]
        exact List.mem_append_right _ (herrors hm)
      · exact .inr (.inr hout)
    · exact .inr (.inl ((mem_leftOver hplace).2 ⟨hall, hk, Bool.eq_false_iff.2 hexpected⟩))

/-! ## A key that is passed over -/

/-- The names of cats that say twice that they are cats. -/
def doubtingSelections : List Selection := [plain "__typename" [],
  .inline (some "Cat") [] [.field ⟨some "kind", "__typename", [], []⟩ [], .inline (some "Cat") [] [plain "name" []]]]

/-- A query for the names of such cats. -/
def doubtingOperation : Operation := ⟨none, .query, none, [], [], [plain "pets" doubtingSelections]⟩

theorem validate_doubtingOperation : GraphQL.validate petSchema [.operation doubtingOperation] = .ok [] :=
  eq_ok_of_toOption (by decide +kernel)

theorem compares_doubtingOperation : Compares petSchema [.operation doubtingOperation] none doubtingOperation "Query" :=
  ⟨⟨[.operation doubtingOperation], by cbv, by cbv⟩, by cbv⟩

/-- A cat that says that it is a dog, too, and has a number for a name. -/
def doubtfulCat : Located :=
  ⟨[.key "pets", .index 0], .obj [("__typename", .str "Cat"), ("kind", .str "Dog"), ("name", .int 5)]⟩

/-- Pets, with such a cat among them. -/
def doubtful : Json := .obj [("pets", .arr [doubtfulCat.value])]

theorem check_doubtful : check petSchema [.operation doubtingOperation] doubtful none = .ok ⟨[], false⟩ := by cbv

theorem metIn_doubtingOperation :
    metIn [] doubtingOperation.selections = [⟨[], ⟨none, "pets", [], []⟩, doubtingSelections⟩] := by cbv

theorem metIn_doubtingSelections : metIn [] doubtingSelections =
    [⟨[], ⟨none, "__typename", [], []⟩, []⟩, ⟨["Cat"], ⟨some "kind", "__typename", [], []⟩, []⟩,
      ⟨["Cat", "Cat"], ⟨none, "name", [], []⟩, []⟩] := by cbv

/-- The walk through a doubtful cat comes to the query and to the pets. -/
theorem reaches_doubting {start frame : Frame} {selections : List Selection} {tree : Expectation}
    (hb : Builds petSchema doubtingOperation.selections start tree)
    (h : Reaches petSchema doubtingOperation.selections start selections frame) :
    selections = doubtingOperation.selections ∨ selections = doubtingSelections := by
  induction h with
  | here => exact .inl rfl
  | @field selections frame narrowed m definition reached looks nonempty ih =>
    obtain ⟨scope, -, hscope⟩ := exists_mem_walk_of_reaches hb reached
    have hm := looks.mem_metIn hscope.not_stop
    rcases ih with rfl | rfl
    · rw [metIn_doubtingOperation, List.mem_singleton] at hm
      subst hm
      exact .inr rfl
    · rw [metIn_doubtingSelections] at hm
      simp only [List.mem_cons, List.not_mem_nil, or_false] at hm
      rcases hm with rfl | rfl | rfl <;> exact absurd rfl nonempty

/-- No check of the name of the cat is without a mismatch. -/
theorem not_isChecked_doubtfulCat {start : Frame} {tree : Expectation}
    (hb : Builds petSchema doubtingOperation.selections start tree)
    (hstart : start.IsAt petSchema start.type start.values []) :
    ¬ IsChecked petSchema doubtingOperation.selections start [] doubtfulCat "name" := by
  rintro ⟨selections, frame, narrowed, m, definition, hr, hl, -, hkey, herrors⟩
  obtain ⟨scope, -, hscope⟩ := exists_mem_walk_of_reaches hb hr
  have hm := hl.mem_metIn hscope.not_stop
  have hat := isAt_of_field_mem (hr.isAt hstart) hl.step
  have hknown := hl.known
  have hname : m.field.name = "name" ∧ narrowed.type = "Cat" := by
    rw [hat.type]
    rcases reaches_doubting hb hr with rfl | rfl
    · rw [metIn_doubtingOperation, List.mem_singleton] at hm
      subst hm
      simp [GraphQL.Field.key] at hkey
    · rw [metIn_doubtingSelections] at hm
      simp only [List.mem_cons, List.not_mem_nil, or_false] at hm
      rcases hm with rfl | rfl | rfl
      · simp [GraphQL.Field.key] at hkey
      · simp [GraphQL.Field.key] at hkey
      · exact ⟨rfl, rfl⟩
  have hcat : petSchema.fieldOf? (some "Cat") "name" = some ⟨"name", .nonNull (.named "String"), []⟩ := by cbv
  rw [hname.1, hname.2, hcat] at hknown
  cases hknown
  have hmisfit : (checkField petSchema narrowed "name" (.nonNull (.named "String")) doubtfulCat).errors =
      [.misfit ⟨[], .notText (.int 5)⟩] := by cbv
  rw [hmisfit, List.subset_nil] at herrors
  cases herrors

/-- What a walk through a doubtful cat comes to: an object with a name that is not checked, and nothing left over. -/
theorem walk_doubtful {tree : Expectation}
    (ht : (walkOperation petSchema "Query" doubtingOperation doubtful).outcome = .ok tree) :
    (∃ scope ∈ tree.walk, doubtfulCat ∈ scope.objects) ∧ leftOver tree = [] ∧
      ¬ IsChecked petSchema doubtingOperation.selections (startFrame petSchema "Query" doubtful)
        (walkOperation petSchema "Query" doubtingOperation doubtful).errors doubtfulCat "name" := by
  have hwalk : (walkSet petSchema doubtingOperation.selections (startFrame petSchema "Query" doubtful)
      (.holding none (rootValues doubtful))).outcome = .ok tree := ht
  have hobjects : (walkOperation petSchema "Query" doubtingOperation doubtful).outcome.map allObjects =
      .ok [⟨[], doubtful⟩, doubtfulCat] := by cbv
  have hleft : (walkOperation petSchema "Query" doubtingOperation doubtful).outcome.map leftOver = .ok [] := by cbv
  have herrors : (walkOperation petSchema "Query" doubtingOperation doubtful).errors = [] := by cbv
  rw [ht] at hobjects hleft
  refine ⟨?_, Except.ok.inj hleft, ?_⟩
  · have hmem : doubtfulCat ∈ allObjects tree := by
      rw [Except.ok.inj hobjects]
      exact List.mem_cons_of_mem _ (List.mem_singleton_self _)
    exact List.mem_flatMap.1 hmem
  · rw [herrors]
    exact not_isChecked_doubtfulCat ⟨none, hwalk⟩ (Frame.isAt_forField ..)

/-- **There are keys that are neither checked nor left over.** -/
theorem unchecked_key_not_left_over :
    ¬ ∀ (schema : Schema) (document : Document) (name : Option String) (fixture : Json) (result : CheckResult),
      schema.IsWellFormed → GraphQL.validate schema document = .ok [] →
      check schema document fixture name = .ok result → result.aborted = false →
      ∃ operation root tree, Compares schema document name operation root ∧
        (walkOperation schema root operation fixture).outcome = .ok tree ∧
        ∀ scope ∈ tree.walk, ∀ v ∈ scope.objects, ∀ k ∈ v.keys,
          IsChecked schema operation.selections (startFrame schema root fixture)
              (walkOperation schema root operation fixture).errors v k ∨
            (v, k) ∈ leftOver tree := by
  intro hall
  obtain ⟨operation, root, tree, hc, ht, hall⟩ :=
    hall petSchema _ none doubtful _ petSchema_isWellFormed validate_doubtingOperation check_doubtful rfl
  obtain ⟨rfl, rfl⟩ := hc.unique compares_doubtingOperation
  obtain ⟨⟨scope, hs, hcat⟩, hleft, hunchecked⟩ := walk_doubtful ht
  rcases hall scope hs doubtfulCat hcat "name" (by decide) with hchecked | hover
  · exact hunchecked hchecked
  · rw [hleft] at hover
    cases hover

/-- The name of the cat is out of its reach. -/
theorem doubtfulCat_out_of_reach :
    check petSchema [.operation doubtingOperation] doubtful none = .ok ⟨[], false⟩ ∧
    IsOutOfReach petSchema doubtingOperation.selections (startFrame petSchema "Query" doubtful) doubtfulCat "name" := by
  refine ⟨check_doubtful, ?_⟩
  obtain ⟨operation, root, tree, hc, ht, -, hall⟩ := keys_are_checked_or_left_over check_doubtful rfl
  obtain ⟨rfl, rfl⟩ := hc.unique compares_doubtingOperation
  obtain ⟨⟨scope, hs, hcat⟩, hleft, hunchecked⟩ := walk_doubtful ht
  rcases hall scope hs doubtfulCat hcat "name" (by decide) with hchecked | hover | hout
  · exact absurd hchecked hunchecked
  · rw [hleft] at hover
    cases hover
  · exact hout

end FixtureCheck.Fixture
