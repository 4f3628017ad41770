import FixtureCheck.Proofs.Walk.Place

/-!
# Expected keys of objects

A scope holds the objects of its frame (`Builds.holds_iff`) and expects of an object the keys of the fields met in its
set whose type conditions the object may meet (`Builds.mem_applicable`). No key is left over if and only if each key of
each object is expected by a scope that holds the object (`extraFields_eq_nil`).
-/

namespace FixtureCheck.Fixture

open GraphQL (Schema Selection)
open Expectation

/-! ## Objects of scopes -/

section

variable {e : Expectation} {u v : Located}

theorem samePlace_iff : samePlace u v = true ↔ u.path = v.path := by
  simp [samePlace]

theorem Expectation.holds_iff : e.holds v = true ↔ ∃ u ∈ e.objects, u.path = v.path := by
  rw [holds, List.any_eq_true]
  exact exists_congr fun u => and_congr_right fun _ => samePlace_iff.trans eq_comm

theorem addObject_of_object (h : kindOf v.value = .object) :
    e.addObject v = if e.objects.any (samePlace v) then e else { e with objects := e.objects ++ [v] } := by
  obtain ⟨path, value⟩ := v
  cases value <;> simp_all [kindOf, addObject]

/-- An object that is taken up is held, and so is what was held before. -/
theorem holds_addObject (hv : kindOf v.value = .object) : (e.addObject v).holds u = true ↔
    e.holds u = true ∨ u.path = v.path := by
  rw [addObject_of_object hv]
  split
  · rename_i hany
    obtain ⟨w, hw, hsame⟩ := List.any_eq_true.1 hany
    constructor
    · exact .inl
    · rintro (h | h)
      · exact h
      · exact Expectation.holds_iff.2 ⟨w, hw, (samePlace_iff.1 hsame).symm.trans h.symm⟩
  · simp [holds, samePlace_iff]

theorem holds_addObjects (u : Located) : ∀ {values : List Located} {e : Expectation},
    (∀ v ∈ values, kindOf v.value = .object) →
      ((e.addObjects values).holds u = true ↔ e.holds u = true ∨ ∃ v ∈ values, u.path = v.path)
  | [], e, _ => by simp [addObjects]
  | v :: rest, e, h => by
    have hrest := holds_addObjects u (e := e.addObject v) fun w hw => h w (List.mem_cons_of_mem _ hw)
    have hfirst : (e.addObjects (v :: rest)).holds u = true ↔
        ((e.addObject v).addObjects rest).holds u = true := Iff.rfl
    rw [hfirst, hrest, holds_addObject (h v List.mem_cons_self), or_assoc, List.exists_mem_cons_iff]

/-- Takes up an object unless there is one at its place. -/
def takeUp (done : List Located) (object : Located) : List Located :=
  if done.any (samePlace object) then done else done ++ [object]

theorem mem_foldl_takeUp : ∀ {objects done : List Located}, v ∈ objects.foldl takeUp done → v ∈ done ∨ v ∈ objects
  | [], _, h => .inl h
  | o :: rest, done, h => by
    have hrest : v ∈ rest.foldl takeUp (takeUp done o) := h
    rcases mem_foldl_takeUp hrest with h | h
    · unfold takeUp at h
      split at h
      · exact .inl h
      · rcases List.mem_append.1 h with h | h
        · exact .inl h
        · exact .inr (List.mem_singleton.1 h ▸ List.mem_cons_self)
    · exact .inr (List.mem_cons_of_mem _ h)

/-- Each object has its place among those that are taken up. -/
theorem exists_foldl_takeUp : ∀ {objects done : List Located} {v : Located}, v ∈ done ∨ v ∈ objects →
    ∃ u ∈ objects.foldl takeUp done, u.path = v.path
  | [], _, v, h => ⟨v, h.resolve_right List.not_mem_nil, rfl⟩
  | o :: rest, done, v, h => by
    rw [List.foldl_cons]
    have hkept : ∀ w ∈ done, w ∈ takeUp done o := by
      intro w hw
      unfold takeUp
      split
      · exact hw
      · exact List.mem_append_left _ hw
    have hnew : ∃ w ∈ takeUp done o, w.path = o.path := by
      unfold takeUp
      split
      · rename_i hany
        obtain ⟨w, hw, hsame⟩ := List.any_eq_true.1 hany
        exact ⟨w, hw, (samePlace_iff.1 hsame).symm⟩
      · exact ⟨o, List.mem_append_right _ (List.mem_singleton_self _), rfl⟩
    rcases h with h | h
    · exact exists_foldl_takeUp (.inl (hkept v h))
    · rcases List.mem_cons.1 h with rfl | h
      · obtain ⟨w, hw, hp⟩ := hnew
        have hkept : ∃ u ∈ rest.foldl takeUp (takeUp done v), u.path = w.path := exists_foldl_takeUp (.inl hw)
        obtain ⟨u, hu, hu'⟩ := hkept
        exact ⟨u, hu, hu'.trans hp⟩
      · exact exists_foldl_takeUp (.inr h)

/-- Is a value an object? -/
def Located.isObject (v : Located) : Bool := decide (kindOf v.value = .object)

/-- What a scope takes up are objects, one at each place. -/
theorem objects_addObjects : ∀ (values : List Located) (e : Expectation),
    (e.addObjects values).objects = (values.filter Located.isObject).foldl takeUp e.objects
  | [], _ => rfl
  | v :: rest, e => by
    have hrest : (e.addObjects (v :: rest)).objects = ((e.addObject v).addObjects rest).objects := rfl
    rw [hrest, objects_addObjects rest, List.filter_cons]
    by_cases hv : kindOf v.value = .object
    · have hstep : (e.addObject v).objects = takeUp e.objects v := by
        rw [addObject_of_object hv, takeUp]
        split <;> rfl
      rw [if_pos (by simpa [Located.isObject] using hv), hstep]
      rfl
    · have hstep : e.addObject v = e := by
        unfold addObject
        split
        · rename_i entries hentries
          exact absurd (by rw [hentries]; rfl) hv
        · rfl
      rw [if_neg (by simpa [Located.isObject] using hv), hstep]

theorem objects_holding (key : Option String) (values : List Located) :
    (holding key values).objects = (values.filter Located.isObject).foldl takeUp [] :=
  objects_addObjects values { key }

theorem mem_values_of_isObject {values : List Located} {v : Located} (h : v ∈ values.filter Located.isObject) :
    v ∈ values ∧ kindOf v.value = .object := by
  simpa [Located.isObject] using h

/-- No object is taken up twice. -/
theorem nodup_foldl_takeUp : ∀ {objects done : List Located}, done.Nodup → (objects.foldl takeUp done).Nodup
  | [], _, h => h
  | o :: rest, done, h => by
    rw [List.foldl_cons]
    refine nodup_foldl_takeUp ?_
    unfold takeUp
    split
    · exact h
    · rename_i hnew
      refine List.nodup_append.2 ⟨h, List.nodup_singleton o, fun u hu v hv => ?_⟩
      rintro rfl
      obtain rfl := List.mem_singleton.1 hv
      exact hnew (List.any_eq_true.2 ⟨u, hu, samePlace_iff.2 rfl⟩)

theorem distinctObjects_eq (root : Expectation) :
    distinctObjects root = (root.walk.flatMap (·.objects)).foldl takeUp [] := rfl

/-- **No key is left over if and only if some scope that holds an object expects it**, for each key of each object. -/
theorem extraFields_eq_nil {root : Expectation} (hplace : ∀ scope ∈ root.walk, ∀ u ∈ scope.objects,
    ∀ scope' ∈ root.walk, ∀ v ∈ scope'.objects, u.path = v.path → u = v) :
    extraFields root = [] ↔ ∀ scope ∈ root.walk, ∀ v ∈ scope.objects, ∀ k ∈ v.keys,
      ∃ scope' ∈ root.walk, scope'.holds v = true ∧ k ∈ scope'.applicable v := by
  rw [extraFields, List.flatMap_eq_nil_iff]
  have hkeys : ∀ v : Located, v.keys.filter (!isExpected root.walk v ·) = [] ↔ ∀ k ∈ v.keys,
      ∃ scope' ∈ root.walk, scope'.holds v = true ∧ k ∈ scope'.applicable v := by
    intro v
    rw [List.filter_eq_nil_iff]
    refine forall₂_congr fun k _ => ?_
    simp [isExpected]
  simp only [hkeys, distinctObjects_eq]
  constructor
  · intro h scope hs v hv
    have hmem : v ∈ ([] : List Located) ∨ v ∈ root.walk.flatMap (·.objects) :=
      .inr (List.mem_flatMap.2 ⟨scope, hs, hv⟩)
    obtain ⟨u, hu, hp⟩ := exists_foldl_takeUp hmem
    obtain ⟨scope', hs', hu'⟩ := List.mem_flatMap.1 ((mem_foldl_takeUp hu).resolve_left List.not_mem_nil)
    rw [← hplace scope' hs' u hu' scope hs v hv hp]
    exact h u hu
  · intro h v hv
    obtain ⟨scope, hs, hv⟩ := List.mem_flatMap.1 ((mem_foldl_takeUp hv).resolve_left List.not_mem_nil)
    exact h scope hs v hv

/-! ## Keys of scopes -/

theorem mem_foldl_union {k : String} : ∀ {entries : List TypedFields} {keys : NameSet},
    k ∈ entries.foldl (fun keys entry => keys.union entry.fields) keys ↔ k ∈ keys ∨ ∃ entry ∈ entries, k ∈ entry.fields
  | [], keys => by simp
  | entry :: rest, keys => by
    rw [List.foldl_cons, mem_foldl_union, NameSet.mem_union, or_assoc, List.exists_mem_cons_iff]

/-- May an object have one of the types of a set, for all that it tells under a key? -/
def MayBe (v : Located) (key : Option String) (possible : NameSet) : Prop :=
  ∀ name, typename? v.value key = some name → name ∈ possible

theorem isReached_iff {key : Option String} {possible : NameSet} :
    Frame.isReached key possible v = true ↔ MayBe v key possible := by
  unfold Frame.isReached MayBe
  cases typename? v.value key <;> simp

/-- A scope expects the keys under no type condition, and those of sets of types that the object may have. -/
theorem mem_applicable {k : String} : k ∈ e.applicable v ↔
    k ∈ e.common ∨ ∃ entry ∈ e.byType, MayBe v e.typenameKey entry.possible ∧ k ∈ entry.fields := by
  unfold applicable
  simp only [mem_foldl_union, List.mem_filter, and_assoc]
  refine or_congr_right (exists_congr fun entry => and_congr_right fun _ => and_congr_left fun _ => ?_)
  unfold MayBe
  cases typename? v.value e.typenameKey <;> simp

end

/-- The key under which a selection set has the objects of a frame name their types, unless there is none. -/
def namingKey (schema : Schema) (selections : List Selection) (frame : Frame) : Option String :=
  (setSteps schema [] selections frame).findSome? Step.typenameKey?

namespace Builds

variable {schema : Schema} {selections : List Selection} {frame : Frame} {scope : Expectation} {v : Located}

theorem objects_eq (h : Builds schema selections frame scope) :
    ∃ key, scope.objects = (holding key frame.values).objects := by
  obtain ⟨key, he⟩ := h
  rw [walkSet_eq_run schema []] at he
  exact ⟨key, objects_run he⟩

/-- What a scope holds are objects of its frame. -/
theorem object_of_mem (h : Builds schema selections frame scope) (hv : v ∈ scope.objects) :
    v ∈ frame.values ∧ kindOf v.value = .object := by
  obtain ⟨key, ho⟩ := h.objects_eq
  rw [ho, objects_holding] at hv
  exact mem_values_of_isObject ((mem_foldl_takeUp hv).resolve_left List.not_mem_nil)

/-- A scope holds the objects of its frame. -/
theorem holds_iff (h : Builds schema selections frame scope) (hv : ∀ v ∈ frame.values, kindOf v.value = .object) :
    scope.holds v = true ↔ ∃ u ∈ frame.values, v.path = u.path := by
  obtain ⟨key, ho⟩ := h.objects_eq
  have hsame : scope.holds v = (holding key frame.values).holds v := by
    rw [Expectation.holds, Expectation.holds, ho]
  rw [hsame, holding, holds_addObjects v hv]
  simp [Expectation.holds]

/-- The key under which the objects of a scope name their types is that of its set. -/
theorem typenameKey_eq (h : Builds schema selections frame scope) :
    scope.typenameKey = namingKey schema selections frame := by
  obtain ⟨key, he⟩ := h
  rw [walkSet_eq_run schema []] at he
  rw [typenameKey_run he, (isFresh_holding key frame.values).typenameKey]
  rfl

/-- **A scope expects of an object the keys of the fields met under no type condition, or under conditions that the
object may meet.** -/
theorem mem_applicable {declared : String} {objects : List Located} (h : Builds schema selections frame scope)
    (hf : frame.IsAt schema declared objects []) {k : String} :
    k ∈ scope.applicable v ↔ ∃ m ∈ metIn [] selections, m.field.key = k ∧
      (m.conditions = [] ∨ MayBe v (namingKey schema selections frame) (m.possible schema declared)) := by
  rw [← h.typenameKey_eq]
  obtain ⟨key, he⟩ := h
  obtain ⟨hcommon, hsets, hdistinct, hfields, -, -, -⟩ := mirrors_walkSet hf (isFresh_holding key frame.values) he
  rw [Fixture.mem_applicable, hcommon]
  constructor
  · rintro (⟨m, hm, hc, hk⟩ | ⟨entry, hentry, hmay, hk⟩)
    · exact ⟨m, hm, hk, .inl hc⟩
    · obtain ⟨m, hm, hc, hp, hk⟩ := (hfields entry hentry k).1 hk
      exact ⟨m, hm, hk, .inr (hp ▸ hmay)⟩
  · rintro ⟨m, hm, hk, hmay⟩
    by_cases hc : m.conditions = []
    · exact .inl ⟨m, hm, hc, hk⟩
    · obtain ⟨entry, hentry, hp⟩ := List.mem_map.1 ((hsets _).2 ⟨m, hm, hc, rfl⟩)
      refine .inr ⟨entry, hentry, ?_, (hfields entry hentry k).2 ⟨m, hm, hc, hp.symm, hk⟩⟩
      rw [hp]
      exact hmay.resolve_left hc

end Builds

/-! ## Walks without keys that are left over -/

/-- **Does a set that a walk reaches with an object select a key for it**: the key of a field under no type condition,
or under conditions that the object may meet? -/
def SelectedFor (schema : Schema) (top : List Selection) (start : Frame) (v : Located) (k : String) : Prop :=
  ∃ selections frame, Reaches schema top start selections frame ∧ v ∈ frame.values ∧
    ∃ m ∈ metIn [] selections, m.field.key = k ∧
      (m.conditions = [] ∨ MayBe v (namingKey schema selections frame) (m.possible schema frame.type))

namespace Walked

variable {schema : Schema} {fixture : Json} {top : List Selection} {start : Frame} {tree : Expectation}

/-- The objects in the frames that a walk reaches stand in the fixture. -/
theorem values_of_reaches (hw : schema.IsWellFormed) (h : Walked schema fixture top start tree)
    {selections : List Selection} {frame : Frame} (hr : Reaches schema top start selections frame) {v : Located}
    (hv : v ∈ frame.values) : v.IsIn fixture ∧ kindOf v.value = .object := by
  obtain ⟨scope, -, hscope⟩ := h.of_reaches hw hr
  exact hscope.values v hv

/-- **A walk leaves no key over if and only if each key of each object that it reaches is selected for the object.** -/
theorem extraFields_eq_nil (hw : schema.IsWellFormed) (h : Walked schema fixture top start tree) :
    extraFields tree = [] ↔ ∀ selections frame, Reaches schema top start selections frame → ∀ v ∈ frame.values,
      ∀ k ∈ v.keys, SelectedFor schema top start v k := by
  have hobjects : ∀ scope ∈ tree.walk, ∀ v ∈ scope.objects, v.IsIn fixture := by
    intro scope hs v hv
    obtain ⟨selections, frame, hr, hb⟩ := exists_reaches_of_mem_walk h.builds hs
    exact (h.values_of_reaches hw hr (hb.object_of_mem hv).1).1
  rw [Fixture.extraFields_eq_nil fun scope hs u hu scope' hs' v hv hp =>
    Located.eq_of_path (hobjects scope hs u hu) (hobjects scope' hs' v hv) hp]
  constructor
  · intro hall selections frame hr v hv k hk
    have hvin := (h.values_of_reaches hw hr hv).1
    obtain ⟨scope, hs, hscope⟩ := h.of_reaches hw hr
    have hheld := (hscope.builds.holds_iff fun u hu => (hscope.values u hu).2).2 ⟨v, hv, rfl⟩
    obtain ⟨u, hu, hp⟩ := Expectation.holds_iff.1 hheld
    have huv : u = v := Located.eq_of_path (hobjects scope hs u hu) hvin hp
    subst huv
    obtain ⟨scope', hs', hheld', hk'⟩ := hall scope hs u hu k hk
    obtain ⟨selections', frame', hr', hb'⟩ := exists_reaches_of_mem_walk h.builds hs'
    obtain ⟨_, _, hscope'⟩ := h.of_reaches hw hr'
    obtain ⟨w, hw', hp'⟩ := (hb'.holds_iff fun u hu => (hscope'.values u hu).2).1 hheld'
    have hwu : u = w := Located.eq_of_path hvin (hscope'.values w hw').1 hp'
    subst hwu
    exact ⟨selections', frame', hr', hw', (hb'.mem_applicable hscope'.isAt).1 hk'⟩
  · intro hall scope hs v hv k hk
    obtain ⟨selections, frame, hr, hb⟩ := exists_reaches_of_mem_walk h.builds hs
    obtain ⟨selections', frame', hr', hv', hm⟩ :=
      hall selections frame hr v (hb.object_of_mem hv).1 k hk
    obtain ⟨scope', hs', hscope'⟩ := h.of_reaches hw hr'
    refine ⟨scope', hs', ?_, (hscope'.builds.mem_applicable hscope'.isAt).2 hm⟩
    exact (hscope'.builds.holds_iff fun u hu => (hscope'.values u hu).2).2 ⟨v, hv', rfl⟩

end Walked

end FixtureCheck.Fixture
