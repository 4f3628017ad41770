import FixtureCheck.Proofs.Expectation.Edits
import FixtureCheck.Proofs.Walk.TypeNames

/-!
# Trees of expectations and what was done to them

A log of edits that are made in order tells which scopes there are (`HasScope`), and what is in each of them
(`Reflects`): each edit keeps this so (`Reflects.apply`), and therefore a log of edits does (`at?_edits`). So the log
tells which keys are left over: **those of objects that no record of a scope applies to** (`extraFields_edits`), however
the records are put together in entries and the objects in lists.
-/

namespace FixtureCheck.Fixture

namespace Expectation

variable {log : List Edit} {changes : List Change} {change : Change} {e : Edit} {s s' : Expectation} {place q : Place}

/-! ## Logs -/

/-- The changes of a log at a place. -/
def changesAt (log : List Edit) (place : Place) : List Change :=
  (log.filter fun e => e.place = place).map (·.change)

/-- How many children do changes add? -/
def childCount (changes : List Change) : Nat :=
  changes.countP fun
    | .child _ => true
    | _ => false

/-- The objects that changes add, in order, with repetitions. -/
def added (changes : List Change) : List Located :=
  changes.flatMap fun
    | .add objects => objects.filter Located.isObject
    | _ => []

/-- The key for type names that changes leave. -/
def lastTypenameKey (changes : List Change) : Option String :=
  changes.foldl (fun key change =>
    match change with
    | .typenameKey key' => key'
    | _ => key) none

/-- Does a log make a scope at a place? The children of a scope are counted from zero. -/
def HasScope (log : List Edit) (place : Place) : Prop :=
  place = [] ∨ ∃ before after outer key, log = before ++ ⟨outer, .child key⟩ :: after ∧
    place = outer ++ [childCount (changesAt before outer)]

/-- After the edits `done`, is each edit of a log made to a scope that is there by then? -/
inductive InOrder : List Edit → List Edit → Prop
  | nil {done : List Edit} : InOrder done []
  | cons {done rest : List Edit} {e : Edit} : HasScope done e.place → InOrder (done ++ [e]) rest →
      InOrder done (e :: rest)

theorem changesAt_concat (log : List Edit) (e : Edit) (place : Place) :
    changesAt (log ++ [e]) place = changesAt log place ++ if e.place = place then [e.change] else [] := by
  rw [changesAt, changesAt, List.filter_append, List.map_append]
  by_cases h : e.place = place <;> simp [h]

/-- A scope that an edit makes is the next child. -/
theorem hasScope_concat : HasScope (log ++ [e]) place ↔
    HasScope log place ∨ ∃ key, e.change = .child key ∧ place = e.place ++ [childCount (changesAt log e.place)] := by
  constructor
  · rintro (h | ⟨before, after, outer, key, hlog, hplace⟩)
    · exact .inl (.inl h)
    · rcases List.eq_nil_or_concat after with rfl | ⟨after, last, rfl⟩
      · obtain ⟨rfl, he⟩ := List.append_inj' hlog rfl
        obtain rfl := List.singleton_inj.1 he
        exact .inr ⟨key, rfl, hplace⟩
      · rw [List.concat_eq_append, ← List.cons_append, ← List.append_assoc] at hlog
        exact .inl (.inr ⟨before, after, outer, key, (List.append_inj' hlog rfl).1, hplace⟩)
  · rintro ((h | ⟨before, after, outer, key, rfl, hplace⟩) | ⟨key, hchange, hplace⟩)
    · exact .inl h
    · exact .inr ⟨before, after ++ [e], outer, key, by simp, hplace⟩
    · exact .inr ⟨log, [], e.place, key, by rw [← hchange], hplace⟩

/-! ## Scopes of a log -/

/-- Is a scope what changes make of a new one? Its children are counted only. -/
structure Reflects (changes : List Change) (s : Expectation) : Prop where
  common : ∀ k, k ∈ s.common ↔ ∃ possible, .record k none possible ∈ changes
  byType : ∀ P k, Expects s.byType P k ↔ ∃ condition ≠ none, .record k condition P ∈ changes
  typenameKey : s.typenameKey = lastTypenameKey changes
  objects : s.objects = (added changes).foldl takeUp []
  children : s.children.length = childCount changes

theorem reflects_nil (key : Option String) : Reflects [] { key } where
  common k := by simp
  byType P k := by simp [Expects]
  typenameKey := rfl
  objects := rfl
  children := rfl

theorem Reflects.of_isLike (h : Reflects changes s) (hs : s'.IsLike s) : Reflects changes s' where
  common k := hs.common ▸ h.common k
  byType P k := hs.byType ▸ h.byType P k
  typenameKey := hs.typenameKey.trans h.typenameKey
  objects := hs.objects.trans h.objects
  children := hs.children.trans h.children

/-- **One more change of a scope** adds to it what the change says. -/
theorem Reflects.apply (h : Reflects changes s) (change : Change) :
    Reflects (changes ++ [change]) (apply change s) := by
  cases change with
  | record key condition possible =>
    obtain ⟨-, hkey, hchildren, hobjects⟩ := @record_rest s key condition possible
    refine ⟨fun k => ?_, fun P k => ?_, hkey.trans ?_, hobjects.trans ?_, ?_⟩
    · rw [Expectation.apply, mem_common_record, h.common]
      simp only [List.mem_append, List.mem_singleton, Change.record.injEq, exists_or]
      simp [and_comm, eq_comm]
    · rw [Expectation.apply, expects_record, h.byType]
      simp only [List.mem_append, List.mem_singleton, Change.record.injEq, and_or_left, exists_or]
      simp only [and_comm, eq_comm (b := possible), eq_comm (b := key)]
      simp
    · simpa [lastTypenameKey] using h.typenameKey
    · simpa [added] using h.objects
    · rw [Expectation.apply, hchildren]
      simpa [childCount] using h.children
  | child key =>
    refine ⟨fun k => ?_, fun P k => ?_, ?_, ?_, ?_⟩
    · simpa [Expectation.apply, addChild] using h.common k
    · simpa [Expectation.apply, addChild] using h.byType P k
    · simpa [Expectation.apply, addChild, lastTypenameKey] using h.typenameKey
    · simpa [Expectation.apply, addChild, added] using h.objects
    · simpa [Expectation.apply, addChild, childCount] using h.children
  | add objects =>
    obtain ⟨-, hcommon, htyped, hkey, hchildren⟩ := addObjects_rest objects s
    refine ⟨fun k => ?_, fun P k => ?_, hkey.trans ?_, ?_, ?_⟩
    · simpa [Expectation.apply, hcommon] using h.common k
    · simpa [Expectation.apply, htyped] using h.byType P k
    · simpa [lastTypenameKey] using h.typenameKey
    · rw [Expectation.apply, objects_addObjects, h.objects]
      simp [added]
    · rw [Expectation.apply, hchildren]
      simpa [childCount] using h.children
  | typenameKey key =>
    refine ⟨fun k => ?_, fun P k => ?_, ?_, ?_, ?_⟩
    · simpa [Expectation.apply] using h.common k
    · simpa [Expectation.apply] using h.byType P k
    · simp [Expectation.apply, lastTypenameKey]
    · simpa [Expectation.apply, added] using h.objects
    · simpa [Expectation.apply, childCount] using h.children

/-- Is there at a place the scope that a log makes, or none if it makes none? -/
def IsTold (log : List Edit) (place : Place) : Option Expectation → Prop
  | some s => HasScope log place ∧ Reflects (changesAt log place) s
  | none => ¬ HasScope log place ∧ changesAt log place = []

/-- **One more edit of a tree**: if a log tells the scopes of the tree, it does so with the edit of a scope that is
there. -/
theorem isTold_edit {root : Expectation} (hplace : HasScope log e.place) (htold : ∀ q, IsTold log q (root.at? q))
    (q : Place) : IsTold (log ++ [e]) q ((edit root e).at? q) := by
  obtain ⟨s, hs, hreflects⟩ : ∃ s, root.at? e.place = some s ∧ Reflects (changesAt log e.place) s := by
    have hedited := htold e.place
    cases hs : root.at? e.place with
    | none =>
      rw [hs] at hedited
      exact absurd hplace hedited.1
    | some s =>
      rw [hs] at hedited
      exact ⟨s, rfl, hedited.2⟩
  by_cases hq : q = e.place
  · subst hq
    rw [edit, at?_modifyAt _ hs]
    refine ⟨hasScope_concat.2 (.inl hplace), ?_⟩
    rw [changesAt_concat, if_pos rfl]
    exact hreflects.apply e.change
  · have hchanges : changesAt (log ++ [e]) q = changesAt log q := by
      rw [changesAt_concat, if_neg (Ne.symm hq), List.append_nil]
    have hbefore := htold q
    rcases @at?_edit_of_ne _ s e.place q e.change hs hq with ⟨key, hchange, hchild, hnone, hafter⟩ | ⟨hchild, hsame⟩
    · rw [hnone] at hbefore
      rw [hafter]
      refine ⟨hasScope_concat.2 (.inr ⟨key, hchange, by rw [hchild, hreflects.children]⟩), ?_⟩
      rw [hchanges, hbefore.2]
      exact reflects_nil (some key)
    · have hscope : HasScope (log ++ [e]) q ↔ HasScope log q := by
        rw [hasScope_concat, or_iff_left]
        rintro ⟨key, hchange, hplace⟩
        exact hchild key hchange (by rw [hplace, hreflects.children])
      generalize root.at? q = before at hsame hbefore
      generalize (edit root e).at? q = after at hsame
      cases hsame with
      | none => exact ⟨hscope.not.2 hbefore.1, hchanges.trans hbefore.2⟩
      | some hlike => exact ⟨hscope.2 hbefore.1, hchanges ▸ hbefore.2.of_isLike hlike⟩

theorem isTold_edits {done rest : List Edit} (h : InOrder done rest) : ∀ {root : Expectation},
    (∀ q, IsTold done q (root.at? q)) → ∀ q, IsTold (done ++ rest) q ((edits root rest).at? q) := by
  induction h with
  | nil => simp [edits]
  | @cons done rest e hplace _ ih =>
    intro root htold q
    rw [List.append_cons]
    exact ih (isTold_edit hplace htold) q

/-- **A log that is made in order tells the scopes of the tree, and what is in them.** -/
theorem at?_edits (h : InOrder [] log) : ∀ place, IsTold log place ((edits {} log).at? place) := by
  refine isTold_edits h fun place => ?_
  cases place with
  | nil =>
    rw [at?_nil]
    exact ⟨.inl rfl, reflects_nil none⟩
  | cons i rest =>
    have hnone : ({} : Expectation).at? (i :: rest) = none := by
      rw [at?_cons]
      rfl
    rw [hnone]
    exact ⟨by simp [HasScope], rfl⟩

theorem hasScope_iff (h : InOrder [] log) : HasScope log place ↔ ∃ s, (edits {} log).at? place = some s := by
  have htold := at?_edits h place
  cases hs : (edits {} log).at? place with
  | none =>
    rw [hs] at htold
    simpa using htold.1
  | some s =>
    rw [hs] at htold
    simpa using htold.1

theorem reflects_of_at? (h : InOrder [] log) (hs : (edits {} log).at? place = some s) :
    Reflects (changesAt log place) s := by
  have htold := at?_edits h place
  rw [hs] at htold
  exact htold.2

/-! ## Objects of a log -/

/-- Objects that are taken up from a list from which others were taken up are those of the others. -/
theorem foldl_takeUp_foldl (done : List Located) : ∀ (objects start : List Located),
    (objects.foldl takeUp start).foldl takeUp done = objects.foldl takeUp (start.foldl takeUp done)
  | [], _ => rfl
  | o :: rest, start => by
    rw [List.foldl_cons, List.foldl_cons, foldl_takeUp_foldl done rest]
    congr 1
    by_cases hany : start.any (samePlace o) = true
    · have hdone : (start.foldl takeUp done).any (samePlace o) = true := by
        obtain ⟨w, hw, hsame⟩ := List.any_eq_true.1 hany
        obtain ⟨u, hu, hp⟩ := exists_foldl_takeUp (.inr hw : w ∈ done ∨ w ∈ start)
        exact List.any_eq_true.2 ⟨u, hu, samePlace_iff.2 ((samePlace_iff.1 hsame).trans hp.symm)⟩
      rw [takeUp, takeUp, if_pos hany, if_pos hdone]
    · rw [takeUp, if_neg hany, List.foldl_append, List.foldl_cons, List.foldl_nil]

/-- It is the same whether objects of several lists are taken up from each list first. -/
theorem foldl_takeUp_flatMap {α : Type} (f : α → List Located) : ∀ (rows : List α) (done : List Located),
    (rows.flatMap fun row => (f row).foldl takeUp []).foldl takeUp done = (rows.flatMap f).foldl takeUp done
  | [], _ => rfl
  | row :: rest, done => by
    rw [List.flatMap_cons, List.flatMap_cons, List.foldl_append, List.foldl_append, foldl_takeUp_flatMap f rest,
      foldl_takeUp_foldl, List.foldl_nil]

/-- To take up objects is to leave out those at places where there is one before. -/
theorem foldl_takeUp_eq (objects : List Located) : objects.foldl takeUp [] = objects.eraseDupsBy samePlace := by
  have hloop : ∀ (objects done : List Located),
      List.eraseDupsBy.loop samePlace objects done = objects.foldl takeUp done.reverse := by
    intro objects
    induction objects with
    | nil => exact fun done => rfl
    | cons o rest ih =>
      intro done
      rw [List.eraseDupsBy.loop, List.foldl_cons, takeUp, List.any_reverse]
      cases done.any (samePlace o) with
      | true => exact ih done
      | false => simpa using ih (o :: done)
  exact (hloop objects []).symm

/-- The objects that a log adds to the scopes at places, each where it first appears. -/
def firstAdded (log : List Edit) (scopes : List Place) : List Located :=
  (scopes.flatMap fun place => added (changesAt log place)).eraseDupsBy samePlace

theorem distinctObjects_edits (h : InOrder [] log) :
    distinctObjects (edits {} log) = firstAdded log ((edits {} log).placesBelow []) := by
  have hobjects : ((edits {} log).placesBelow []).map (fun q => (added (changesAt log q)).foldl takeUp []) =
      (edits {} log).walk.map (·.objects) :=
    forall₂_map_eq ((forall₂_placesBelow _).imp fun q s hs => (reflects_of_at? h hs).objects.symm)
  rw [distinctObjects_eq, List.flatMap_def, ← hobjects, ← List.flatMap_def, foldl_takeUp_flatMap, foldl_takeUp_eq,
    firstAdded]

theorem mem_firstAdded {scopes : List Place} {o : Located} (h : o ∈ firstAdded log scopes) :
    ∃ place ∈ scopes, o ∈ added (changesAt log place) := by
  rw [firstAdded, ← foldl_takeUp_eq] at h
  exact List.mem_flatMap.1 ((mem_foldl_takeUp h).resolve_left List.not_mem_nil)

theorem nodup_keys_of_mem_firstAdded {scopes : List Place} {o : Located}
    (hkeys : ∀ e ∈ log, ∀ objects, e.change = .add objects → ∀ o ∈ objects, o.keys.Nodup)
    (h : o ∈ firstAdded log scopes) : o.keys.Nodup := by
  obtain ⟨place, -, ho⟩ := mem_firstAdded h
  obtain ⟨change, hchange, ho⟩ := List.mem_flatMap.1 ho
  obtain ⟨e, he, rfl⟩ := List.mem_map.1 hchange
  cases hadd : e.change with
  | add objects =>
    rw [hadd] at ho
    exact hkeys e (List.mem_filter.1 he).1 objects hadd o (List.mem_filter.1 ho).1
  | record _ _ _ | child _ | typenameKey _ =>
    rw [hadd] at ho
    cases ho

/-- No two of the objects stand at one place. -/
theorem pairwise_foldl_takeUp : ∀ {objects done : List Located}, done.Pairwise (·.path ≠ ·.path) →
    (objects.foldl takeUp done).Pairwise (·.path ≠ ·.path)
  | [], _, h => h
  | o :: rest, done, h => by
    rw [List.foldl_cons]
    refine pairwise_foldl_takeUp ?_
    rw [takeUp]
    split
    · exact h
    · rename_i hnew
      refine List.pairwise_append.2 ⟨h, List.pairwise_singleton _ _, fun u hu v hv hp => ?_⟩
      obtain rfl := List.mem_singleton.1 hv
      exact hnew (List.any_eq_true.2 ⟨u, hu, samePlace_iff.2 hp.symm⟩)

/-! ## Keys of a log -/

/-- Does an object report a type under a key, by a text that is not empty? -/
def Reports (o : Located) (key : Option String) (name : String) : Prop :=
  ∃ k, key = some k ∧ o.value.field? k = some (.str name) ∧ name ≠ ""

/-- **Does a record apply to an object of a scope?** It does under no type condition; if the scope has no key for type
names, or the empty one; if the object reports nothing under this key; or if what it reports is among the types of the
record. -/
def Applies (key : Option String) (o : Located) (condition : Option String) (possible : NameSet) : Prop :=
  condition = none ∨ key = none ∨ key = some "" ∨ (∀ name, ¬ Reports o key name) ∨ ∃ name ∈ possible, Reports o key name

theorem typename?_eq_iff_reports {o : Located} {key : Option String} {name : String} :
    typename? o.value key = some name ↔ key ≠ some "" ∧ Reports o key name := by
  cases key with
  | none => simp [typename?, Reports]
  | some k =>
    rw [typename?_eq_some_iff]
    simp [Reports, and_comm]

theorem applies_iff {key condition : Option String} {o : Located} {possible : NameSet} :
    Applies key o condition possible ↔ condition = none ∨ MayBe o key possible := by
  refine or_congr_right ⟨?_, fun hmay => ?_⟩
  · rintro (rfl | rfl | hnone | ⟨name, hname, hreports⟩) n hn
    · exact absurd (typename?_eq_iff_reports.1 hn).2 (by simp [Reports])
    · exact absurd rfl (typename?_eq_iff_reports.1 hn).1
    · exact absurd (typename?_eq_iff_reports.1 hn).2 (hnone n)
    · obtain ⟨k, rfl, hk, -⟩ := hreports
      obtain ⟨-, k', hk', hn, -⟩ := typename?_eq_iff_reports.1 hn
      obtain rfl := Option.some.inj hk'
      rw [hk, Option.some.injEq, Json.str.injEq] at hn
      exact hn ▸ hname
  · by_cases hempty : key = some ""
    · exact .inr (.inl hempty)
    · refine .inr (.inr ?_)
      by_cases hreports : ∃ name, Reports o key name
      · obtain ⟨name, hreports⟩ := hreports
        exact .inr ⟨name, hmay name (typename?_eq_iff_reports.2 ⟨hempty, hreports⟩), hreports⟩
      · exact .inl (not_exists.1 hreports)

/-- **Does a log select a key for an object?** A scope that holds the object has a record of the key that applies. -/
def IsSelected (log : List Edit) (o : Located) (k : String) : Prop :=
  ∃ place, (∃ u ∈ added (changesAt log place), u.path = o.path) ∧
    ∃ condition possible, .record k condition possible ∈ changesAt log place ∧
      Applies (lastTypenameKey (changesAt log place)) o condition possible

/-- A scope expects the keys of the records that apply to an object. -/
theorem Reflects.mem_applicable {o : Located} {k : String} (h : Reflects changes s) : k ∈ s.applicable o ↔
    ∃ condition possible, .record k condition possible ∈ changes ∧
      Applies (lastTypenameKey changes) o condition possible := by
  have hentry : (∃ entry ∈ s.byType, MayBe o s.typenameKey entry.possible ∧ k ∈ entry.fields) ↔
      ∃ P, Expects s.byType P k ∧ MayBe o s.typenameKey P := by
    constructor
    · rintro ⟨entry, hm, hmay, hk⟩
      exact ⟨entry.possible, ⟨entry, hm, rfl, hk⟩, hmay⟩
    · rintro ⟨P, ⟨entry, hm, rfl, hk⟩, hmay⟩
      exact ⟨entry, hm, hmay, hk⟩
  rw [Fixture.mem_applicable, hentry, h.common]
  simp only [h.byType, applies_iff, h.typenameKey]
  constructor
  · rintro (⟨possible, hm⟩ | ⟨possible, ⟨condition, -, hm⟩, hmay⟩)
    · exact ⟨none, possible, hm, .inl rfl⟩
    · exact ⟨condition, possible, hm, .inr hmay⟩
  · rintro ⟨condition, possible, hm, happlies⟩
    by_cases hc : condition = none
    · exact .inl ⟨possible, hc ▸ hm⟩
    · exact .inr ⟨possible, ⟨condition, hc, hm⟩, happlies.resolve_left hc⟩

theorem Reflects.holds_iff {o : Located} (h : Reflects changes s) :
    s.holds o = true ↔ ∃ u ∈ added changes, u.path = o.path := by
  rw [Fixture.Expectation.holds_iff, h.objects]
  constructor
  · rintro ⟨u, hu, hp⟩
    exact ⟨u, (mem_foldl_takeUp hu).resolve_left List.not_mem_nil, hp⟩
  · rintro ⟨u, hu, hp⟩
    obtain ⟨w, hw, hp'⟩ := exists_foldl_takeUp (.inr hu : u ∈ [] ∨ u ∈ added changes)
    exact ⟨w, hw, hp'.trans hp⟩

theorem isExpected_edits (h : InOrder [] log) (o : Located) (k : String) :
    isExpected (edits {} log).walk o k = true ↔ IsSelected log o k := by
  simp only [isExpected, List.any_eq_true, Bool.and_eq_true, decide_eq_true_eq, mem_walk_iff]
  constructor
  · rintro ⟨s, ⟨q, hq⟩, hholds, hk⟩
    have hs := reflects_of_at? h hq
    exact ⟨q, hs.holds_iff.1 hholds, hs.mem_applicable.1 hk⟩
  · rintro ⟨q, hholds, hk⟩
    have htold := at?_edits h q
    cases hq : (edits {} log).at? q with
    | none =>
      rw [hq] at htold
      obtain ⟨u, hu, -⟩ := hholds
      rw [htold.2] at hu
      cases hu
    | some s =>
      have hs := reflects_of_at? h hq
      exact ⟨s, ⟨q, hq⟩, hs.holds_iff.2 hholds, hs.mem_applicable.2 hk⟩

open Classical in
/-- The keys of objects that a log does not select, with their objects: the objects are those of the scopes at places,
in order, and the keys of each are in their order. -/
noncomputable def unselected (log : List Edit) (scopes : List Place) : List (Located × String) :=
  (firstAdded log scopes).flatMap fun o => (o.keys.filter fun k => ¬ IsSelected log o k).map (o, ·)

/-- **The keys that are left over are those that the log does not select**, object by object where each first appears,
with the scopes in the order of their places: each before its children, and these one after the other. No key of an
object is there twice. -/
theorem extraFields_edits (h : InOrder [] log)
    (hkeys : ∀ e ∈ log, ∀ objects, e.change = .add objects → ∀ o ∈ objects, o.keys.Nodup) :
    ∃ scopes : List Place, scopes.Pairwise (· < ·) ∧ (∀ place, place ∈ scopes ↔ HasScope log place) ∧
      extraFields (edits {} log) = (unselected log scopes).map (·.2) ∧
      ((unselected log scopes).map fun (o, k) => (o.path, k)).Nodup := by
  refine ⟨(edits {} log).placesBelow [], pairwise_placesBelow _, fun place => ?_, ?_, ?_⟩
  · rw [mem_placesBelow, hasScope_iff h]
  · classical
    have hexpected : ∀ (o : Located) (k : String),
        isExpected (edits {} log).walk o k = decide (IsSelected log o k) := by
      intro o k
      rw [Bool.eq_iff_iff, isExpected_edits h, decide_eq_true_eq]
    rw [extraFields, distinctObjects_edits h, unselected]
    simp [hexpected, List.map_flatMap, Function.comp_def]
  · rw [unselected, List.map_flatMap, List.nodup_flatMap]
    refine ⟨fun o ho => ?_, ?_⟩
    · rw [List.map_map]
      refine ((nodup_keys_of_mem_firstAdded hkeys ho).filter _).map fun k k' hk => ?_
      exact (Prod.ext_iff.1 hk).2
    · rw [firstAdded, ← foldl_takeUp_eq]
      refine (pairwise_foldl_takeUp List.Pairwise.nil).imp fun {o o'} hne => ?_
      rw [Function.onFun, List.disjoint_left]
      intro pair hpair hpair'
      obtain ⟨⟨_, k⟩, hk, rfl⟩ := List.mem_map.1 hpair
      obtain ⟨⟨_, k'⟩, hk', heq⟩ := List.mem_map.1 hpair'
      obtain ⟨_, -, hk⟩ := List.mem_map.1 hk
      obtain ⟨_, -, hk'⟩ := List.mem_map.1 hk'
      rw [Prod.mk.injEq] at hk hk' heq
      exact hne (by rw [hk.1, hk'.1, heq.1])

/-- A user, who has one field that is selected for any node, one that is selected for teams only, and a chief. -/
def userLog : List Edit :=
  [⟨[], .typenameKey (some "type")⟩, ⟨[], .record "type" none .empty⟩,
    ⟨[], .record "size" (some "Team") (.singleton "Team")⟩,
    ⟨[], .add [⟨[], .obj [("type", .str "User"), ("size", .int 3), ("name", .str "Ann"),
      ("chief", .obj [("id", .int 1)])]⟩]⟩,
    ⟨[], .record "chief" (some "User") (.singleton "User")⟩, ⟨[], .child "chief"⟩,
    ⟨[], .record "name" (some "Node") (.ofList ["Team", "User"])⟩,
    ⟨[0], .add [⟨[.key "chief"], .obj [("id", .int 1)]⟩]⟩]

theorem userLog_leaves_size_and_id : extraFields (edits {} userLog) = ["size", "id"] ∧ InOrder [] userLog ∧
    (∀ e ∈ userLog, ∀ objects, e.change = .add objects → ∀ o ∈ objects, o.keys.Nodup) ∧
    ∃ scopes : List Place, scopes.Pairwise (· < ·) ∧ (∀ place, place ∈ scopes ↔ HasScope userLog place) ∧
      extraFields (edits {} userLog) = (unselected userLog scopes).map (·.2) ∧
      ((unselected userLog scopes).map fun (o, k) => (o.path, k)).Nodup := by
  have hroot : ∀ done, HasScope done [] := fun _ => .inl rfl
  have horder : InOrder [] userLog :=
    .cons (hroot _) <| .cons (hroot _) <| .cons (hroot _) <| .cons (hroot _) <| .cons (hroot _) <| .cons (hroot _) <|
      .cons (hroot _) <| .cons (.inr ⟨userLog.take 5, (userLog.drop 6).take 1, [], "chief", rfl, rfl⟩) .nil
  have hkeys : ∀ e ∈ userLog, ∀ objects, e.change = .add objects → ∀ o ∈ objects, o.keys.Nodup := by
    simp [userLog, Located.keys]
  exact ⟨by decide +kernel, horder, hkeys, extraFields_edits horder hkeys⟩

end Expectation

end FixtureCheck.Fixture
