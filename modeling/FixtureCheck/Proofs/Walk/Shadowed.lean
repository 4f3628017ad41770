import FixtureCheck.Proofs.Response.Narrowing
import FixtureCheck.Proofs.Walk.Asked

/-!
# Frames that follow frames

A walk through selections with names of types asked for, and a fixture with the names in it, is in frames that shadow
those of the walk without: they have the same types, and counterparts of the same objects (`Frame.Shadows`). Entering
sets and fragments keeps this, so the one walk looks at a field where the other one does (`ComesTo.exists_shadow`,
`Asks.comesTo_of_step`), but for the names that are asked for.
-/

namespace FixtureCheck.Fixture

open GraphQL (Schema Field Selection)
open Expectation

/-! ## Objects that are read alike -/

/-- **Are two objects read alike** where a key for type names is in force: do they name the same type, and is none of
them empty, or both, where emptiness counts because the key names nothing? -/
structure Located.ReadsAlike (v v' : Located) (key : Option String) : Prop where
  typename : typename? v'.value key = typename? v.value key
  empty : key = none ∨ key = some "" → v'.isEmptyObject = v.isEmptyObject

/-- A frame does not expect a field of an object that names a type outside of it, or that is empty and names none where
no type can be named. -/
theorem Frame.expects_eq_false_iff {frame : Frame} {v : Located} :
    frame.expects v = false ↔
      ((frame.typenameKey = none ∨ frame.typenameKey = some "") ∧ frame.isNarrowed = true ∧ v.isEmptyObject = true) ∨
        ¬ MayBe v frame.typenameKey frame.possible := by
  have hnone : ∀ {key : Option String}, key = none ∨ key = some "" → Frame.isReached key frame.possible v = true := by
    rintro key (rfl | rfl) <;> rfl
  rw [← isReached_iff]
  unfold Frame.expects
  split
  · rename_i hkey
    rw [hkey, hnone (.inl rfl)]
    simp
  · rename_i hkey
    rw [hkey, hnone (.inr rfl)]
    simp
  · rename_i hno hno'
    simp only [Bool.not_eq_true]
    constructor
    · exact .inr
    · rintro (⟨hkey | hkey, -⟩ | h)
      · exact absurd hkey hno
      · exact absurd hkey hno'
      · exact h

theorem MayBe.congr {v v' : Located} {key key' : Option String} {possible : NameSet}
    (h : typename? v'.value key' = typename? v.value key) :
    MayBe v' key' possible ↔ MayBe v key possible := by
  unfold MayBe
  rw [h]

/-- Frames with the same types expect the same of objects that are read alike. -/
theorem Located.ReadsAlike.expects_eq {v v' : Located} {frame frame' : Frame}
    (h : v.ReadsAlike v' frame.typenameKey) (hkey : frame'.typenameKey = frame.typenameKey)
    (hpossible : frame'.possible = frame.possible) (hfield : frame'.fieldPossible = frame.fieldPossible) :
    frame'.expects v' = false ↔ frame.expects v = false := by
  have hnarrowed : frame'.isNarrowed = frame.isNarrowed := by
    unfold Frame.isNarrowed
    rw [hpossible, hfield]
  rw [Frame.expects_eq_false_iff, Frame.expects_eq_false_iff, hkey, hpossible, hnarrowed, MayBe.congr h.typename]
  refine or_congr_left (and_congr_right fun hnone => ?_)
  rw [h.empty hnone]

/-! ## Frames -/

/-- **Is a frame the shadow of another one** in a set with the objects `base`? It has the same types; its objects are
counterparts of the other's, all of them but those that name a type outside of it now and did not before. Either both
have the keys for type names of their sets, `key` and `key'`, or both have one under which objects are read alike. -/
structure Frame.Shadows (fixture' : Json) (base : List Located) (key key' : Option String) (frame frame' : Frame) :
    Prop where
  type : frame'.type = frame.type
  possible : frame'.possible = frame.possible
  fieldPossible : frame'.fieldPossible = frame.fieldPossible
  keys : (frame.typenameKey = key ∧ frame'.typenameKey = key') ∨ (frame'.typenameKey = frame.typenameKey ∧
    ∀ v ∈ base, v.ReadsAlike (counterpart fixture' v) frame.typenameKey)
  within : ∀ v ∈ frame.values, v ∈ base
  into : ∀ v ∈ frame.values, typename? (counterpart fixture' v).value key' = typename? v.value key ∨
    MayBe (counterpart fixture' v) key' frame.possible → counterpart fixture' v ∈ frame'.values
  back : ∀ v' ∈ frame'.values, ∃ v ∈ frame.values, v' = counterpart fixture' v

/-- Do objects name no type under a key, or the same one as their counterparts under another key? -/
def KeepsNames (fixture' : Json) (base : List Located) (key key' : Option String) : Prop :=
  ∀ v ∈ base, typename? v.value key = none ∨
    typename? (counterpart fixture' v).value key' = typename? v.value key

/-- Are objects and their counterparts read alike under the keys of all fields that are met? -/
def ReadsFieldsAlike (fixture' : Json) (base : List Located) (fields : List Met) : Prop :=
  ∀ m ∈ fields, ∀ v ∈ base, v.ReadsAlike (counterpart fixture' v) (some m.field.key)

section

variable {schema : Schema} {fixture' : Json} {base : List Located} {key key' : Option String} {frame frame' : Frame}

theorem mem_values_enter {condition : String} {v : Located} : v ∈ (frame.enter schema (some condition)).values ↔
    v ∈ frame.values ∧ MayBe v frame.typenameKey (narrow schema frame.possible (some condition)) := by
  rw [← isReached_iff]
  exact List.mem_filter

/-- **Fragments keep frames in step.** -/
theorem Frame.Shadows.enter (h : frame.Shadows fixture' base key key' frame')
    (hnames : KeepsNames fixture' base key key') (condition : Option String) :
    (frame.enter schema condition).Shadows fixture' base key key' (frame'.enter schema condition) := by
  cases condition with
  | none => exact h
  | some condition =>
    have hnarrow : narrow schema frame'.possible (some condition) = narrow schema frame.possible (some condition) := by
      rw [h.possible]
    refine ⟨rfl, hnarrow, h.fieldPossible, h.keys, ?_, ?_, ?_⟩
    · intro v hv
      exact h.within v (mem_values_enter.1 hv).1
    · intro v hv hreads
      obtain ⟨hin, hmay⟩ := mem_values_enter.1 hv
      have hmay' : MayBe (counterpart fixture' v) frame'.typenameKey
          (narrow schema frame.possible (some condition)) := by
        rcases h.keys with ⟨hkey, hkey'⟩ | ⟨hkey, halike⟩
        · rw [hkey] at hmay
          rw [hkey']
          rcases hreads with hsame | hmay'
          · exact (MayBe.congr hsame).2 hmay
          · exact hmay'
        · rw [hkey]
          exact (MayBe.congr (halike v (h.within v hin)).typename).2 hmay
      refine mem_values_enter.2 ⟨h.into v hin (hreads.imp_right fun hmay name hname => ?_), hnarrow ▸ hmay'⟩
      have hmem := hmay name hname
      simp only [Frame.enter, narrow, NameSet.mem_inter] at hmem
      exact hmem.1
    · intro v' hv'
      obtain ⟨hin', hmay'⟩ := mem_values_enter.1 hv'
      obtain ⟨v, hin, rfl⟩ := h.back v' hin'
      refine ⟨v, mem_values_enter.2 ⟨hin, ?_⟩, rfl⟩
      rw [hnarrow] at hmay'
      rcases h.keys with ⟨hkey, hkey'⟩ | ⟨hkey, halike⟩
      · rw [hkey]
        rw [hkey'] at hmay'
        rcases hnames v (h.within v hin) with hnone | hsame
        · intro name hname
          rw [hnone] at hname
          cases hname
        · exact (MayBe.congr hsame).1 hmay'
      · rw [hkey] at hmay'
        exact (MayBe.congr (halike v (h.within v hin)).typename).1 hmay'

/-- **Sets keep frames in step** if objects are read alike under a key that the sets bring. -/
theorem Frame.Shadows.inSet {selections selections' : List Selection} {conditions : List String}
    (h : frame.Shadows fixture' base key key' frame') (hsame : typenameKey? selections' = typenameKey? selections)
    (hown : ReadsFieldsAlike fixture' base (metIn conditions selections)) :
    (frame.inSet selections).Shadows fixture' base key key' (frame'.inSet selections') := by
  rw [Frame.inSet_eq, Frame.inSet_eq, hsame]
  refine ⟨h.type, h.possible, h.fieldPossible, ?_, h.within, h.into, h.back⟩
  cases hk : typenameKey? selections with
  | none => exact h.keys
  | some own =>
    obtain ⟨f, sub, hf, -, rfl⟩ := exists_of_typenameKey? hk
    exact .inr ⟨rfl, hown _ (mem_metIn_of_mem hf)⟩

/-! ## Steps -/

variable {direct : Bool} {conditions : List String} {selections selections' below : List Selection} {narrowed : Frame}
  {key₀ key₁ : Option String} {m : Met}

theorem ReadsFieldsAlike.of_inline {condition : Option String} {directives : List GraphQL.Directive}
    {inner : List Selection} (h : ReadsFieldsAlike fixture' base (metIn conditions selections))
    (hmem : .inline condition directives inner ∈ selections) :
    ReadsFieldsAlike fixture' base (metIn (conditions ++ condition.toList) inner) :=
  fun m hm => h m (mem_metIn_of_inline hmem hm)

/-- **Where a walk looks at a field, the other one looks at it in the shadow of the frame.** -/
theorem ComesTo.exists_shadow (h : ComesTo schema conditions selections frame selections' key₀ m narrowed below key₁)
    (hframe : frame.Shadows fixture' base key key' frame') (hkey : frame'.typenameKey = key₀)
    (hnames : KeepsNames fixture' base key key') (hown : ReadsFieldsAlike fixture' base (metIn conditions selections))
    (hstop : ∀ cause, Step.stop cause ∉ selectionsSteps schema conditions selections' frame') :
    ∃ narrowed', .field m.conditions narrowed' m.field below ∈ selectionsSteps schema conditions selections' frame' ∧
      narrowed.Shadows fixture' base key key' narrowed' ∧ narrowed'.typenameKey = key₁ := by
  induction h generalizing frame' with
  | field mem mem' asks nil_iff => exact ⟨frame', field_mem_selectionsSteps mem', hframe, hkey⟩
  | @inline conditions selections selections' inner inner' below frame narrowed key₀ key₁ condition directives m mem
      mem' inside next ih =>
    have hinline := fun cause hs => hstop cause (mem_selectionsSteps_of_mem mem' hs)
    have hinside : ∀ cause, Step.stop cause ∉ selectionsSteps schema (conditions ++ condition.toList) inner'
        ((frame'.enter schema condition).inSet inner') := fun cause hs =>
      hinline cause ((mem_selectionSteps_inline hinline).2 (.inr hs))
    have hown' := hown.of_inline mem
    obtain ⟨narrowed', hs, hshadows, hnarrowed⟩ :=
      ih ((hframe.enter hnames condition).inSet inside.typenameKey?_eq hown')
        (by rw [Frame.typenameKey_inSet, typenameKey_enter, inside.typenameKey?_eq, hkey]) hown' hinside
    refine ⟨narrowed', mem_selectionsSteps_of_mem mem' ?_, hshadows, hnarrowed⟩
    exact (mem_selectionSteps_inline hinline).2 (.inr hs)

/-- **Where a walk with names asked for looks at a field, it is a name that is asked for, or the other walk looks at the
field in the frame that casts the shadow.** -/
theorem Asks.comesTo_of_step (h : Asks direct selections selections') {conditions' : List String} {narrowed' : Frame}
    {f : Field} (hframe : frame.Shadows fixture' base key key' frame') (hnames : KeepsNames fixture' base key key')
    (hown : ReadsFieldsAlike fixture' base (metIn conditions selections))
    (hstop : ∀ cause, Step.stop cause ∉ selectionsSteps schema conditions selections' frame')
    (hs : .field conditions' narrowed' f below ∈ selectionsSteps schema conditions selections' frame') :
    (direct = true ∧ selections.length < selections'.length ∧ narrowed' = frame' ∧ .field f below = askName) ∨
      ∃ inner narrowed, ComesTo schema conditions selections frame selections' frame'.typenameKey
        ⟨conditions', f, inner⟩ narrowed below narrowed'.typenameKey ∧
          narrowed.Shadows fixture' base key key' narrowed' := by
  induction h generalizing conditions frame frame' with
  | nil direct => simp [selectionsSteps] at hs
  | @field direct g inner inner' rest rest' asks nil_iff next _ ih =>
    rw [selectionsSteps] at hs hstop
    simp only [selectionSteps, List.mem_append, List.mem_singleton, not_or] at hs hstop
    rcases hs with hs | hs
    · cases hs
      exact .inr ⟨inner, frame, .field List.mem_cons_self List.mem_cons_self asks nil_iff, hframe⟩
    · have hrest : ReadsFieldsAlike fixture' base (metIn conditions rest) := fun m hm =>
        hown m (List.mem_append_right _ hm)
      rcases ih hframe hrest (fun cause => (hstop cause).2) hs with ⟨hdirect, hlt, hask⟩ | ⟨inner, narrowed, hc, hn⟩
      · exact .inl ⟨hdirect, Nat.succ_lt_succ hlt, hask⟩
      · exact .inr ⟨inner, narrowed, hc.mono (fun _ => List.mem_cons_of_mem _) fun _ => List.mem_cons_of_mem _, hn⟩
  | @inline direct condition directives inner inner' rest rest' inside next ih ih' =>
    rw [selectionsSteps] at hs hstop
    simp only [List.mem_append, not_or] at hs hstop
    rcases hs with hs | hs
    · have hinline := fun cause => (hstop cause).1
      rcases (mem_selectionSteps_inline hinline).1 hs with ⟨-, hset⟩ | hs
      · cases hset
      · have hinside := fun cause hs => hinline cause ((mem_selectionSteps_inline hinline).2 (.inr hs))
        have hown' : ReadsFieldsAlike fixture' base (metIn (conditions ++ condition.toList) inner) :=
          hown.of_inline List.mem_cons_self
        have hentered : (frame.enter schema condition).Shadows fixture' base key key' (frame'.enter schema condition) :=
          hframe.enter hnames condition
        have hframe' := hentered.inSet inside.typenameKey?_eq hown'
        rcases ih hframe' hown' hinside hs with ⟨hdirect, -⟩ | ⟨deeper, narrowed, hc, hn⟩
        · cases hdirect
        · rw [Frame.typenameKey_inSet, typenameKey_enter, inside.typenameKey?_eq] at hc
          exact .inr ⟨deeper, narrowed, .inline List.mem_cons_self List.mem_cons_self inside hc, hn⟩
    · have hrest : ReadsFieldsAlike fixture' base (metIn conditions rest) := fun m hm =>
        hown m (List.mem_append_right _ hm)
      rcases ih' hframe hrest (fun cause => (hstop cause).2) hs with ⟨hdirect, hlt, hask⟩ | ⟨inner, narrowed, hc, hn⟩
      · exact .inl ⟨hdirect, Nat.succ_lt_succ hlt, hask⟩
      · exact .inr ⟨inner, narrowed, hc.mono (fun _ => List.mem_cons_of_mem _) fun _ => List.mem_cons_of_mem _, hn⟩
  | @spread direct name directives rest rest' next ih =>
    rw [selectionsSteps] at hs hstop
    simp only [selectionSteps, List.nil_append] at hs hstop
    rcases ih hframe hown hstop hs with ⟨hdirect, hlt, hask⟩ | ⟨inner, narrowed, hc, hn⟩
    · exact .inl ⟨hdirect, Nat.succ_lt_succ hlt, hask⟩
    · exact .inr ⟨inner, narrowed, hc.mono (fun _ => List.mem_cons_of_mem _) fun _ => List.mem_cons_of_mem _, hn⟩
  | @name rest rest' next ih =>
    rw [selectionsSteps] at hs hstop
    simp only [askName, selectionSteps, List.mem_append, List.mem_singleton, not_or] at hs hstop
    rcases hs with hs | hs
    · cases hs
      exact .inl ⟨rfl, Nat.lt_succ_of_le next.length_le, rfl, rfl⟩
    · rcases ih hframe hown (fun cause => (hstop cause).2) hs with ⟨-, hlt, hask⟩ | ⟨inner, narrowed, hc, hn⟩
      · exact .inl ⟨rfl, Nat.lt_succ_of_lt hlt, hask⟩
      · exact .inr ⟨inner, narrowed, hc.mono (fun _ => id) fun _ => List.mem_cons_of_mem _, hn⟩

/-! ## Keys for type names -/

/-- Fields bring no key. -/
theorem findSome?_field {f : Field} {inner : List Selection} {rest : List Step} :
    (Step.field conditions frame f inner :: rest).findSome? Step.typenameKey? = rest.findSome? Step.typenameKey? := rfl

/-- Where no key is in force, a fragment brings its own first. -/
theorem findSome?_inline {condition : Option String} {directives : List GraphQL.Directive} {inner : List Selection}
    (hkey : frame.typenameKey = none)
    (hstop : ∀ cause, Step.stop cause ∉ selectionSteps schema conditions (.inline condition directives inner) frame) :
    (selectionSteps schema conditions (.inline condition directives inner) frame).findSome? Step.typenameKey? =
      (typenameKey? inner).or ((selectionsSteps schema (conditions ++ condition.toList) inner
        ((frame.enter schema condition).inSet inner)).findSome? Step.typenameKey?) := by
  rw [selectionSteps] at hstop ⊢
  cases hc : condition.filter fun name => (schema.type? name).isNone with
  | some name =>
    simp only [hc] at hstop
    exact absurd (List.mem_singleton_self _) (hstop _)
  | none =>
    simp only [hc] at hstop ⊢
    by_cases hnil : inner = []
    · subst hnil
      simp [setSteps, selectionsSteps, typenameKey?]
    · rw [setSteps_of_ne_nil _ hnil, if_neg (lacksTypename_of_not_stop hstop), List.findSome?_cons, Step.typenameKey?,
        Frame.typenameKey_inSet, typenameKey_enter, hkey, Option.or_none]
      cases typenameKey? inner <;> rfl

/-- **Where no key is in force, both walks come to the same one first**, and it is that of a field. -/
theorem Asks.findSome?_eq (h : Asks direct selections selections') (hkey : frame.typenameKey = none)
    (hkey' : frame'.typenameKey = none)
    (hstop : ∀ cause, Step.stop cause ∉ selectionsSteps schema conditions selections frame)
    (hstop' : ∀ cause, Step.stop cause ∉ selectionsSteps schema conditions selections' frame') :
    (selectionsSteps schema conditions selections' frame').findSome? Step.typenameKey? =
        (selectionsSteps schema conditions selections frame).findSome? Step.typenameKey? ∧
      ∀ own ∈ (selectionsSteps schema conditions selections frame).findSome? Step.typenameKey?,
        ∃ m ∈ metIn conditions selections, m.field.key = own := by
  induction h generalizing conditions frame frame' with
  | nil direct => simp [selectionsSteps]
  | field _ _ _ _ ih =>
    rw [selectionsSteps, selectionSteps, List.singleton_append] at hstop hstop'
    simp only [List.mem_cons, not_or] at hstop hstop'
    obtain ⟨heq, hown⟩ := ih hkey hkey' (fun cause => (hstop cause).2) fun cause => (hstop' cause).2
    rw [selectionsSteps, selectionsSteps, selectionSteps, selectionSteps, List.singleton_append, List.singleton_append,
      findSome?_field, findSome?_field]
    refine ⟨heq, fun own ho => ?_⟩
    obtain ⟨m, hm, hk⟩ := hown own ho
    exact ⟨m, List.mem_append_right _ hm, hk⟩
  | @inline direct condition directives inner inner' rest rest' inside next ih ih' =>
    rw [selectionsSteps] at hstop hstop'
    simp only [List.mem_append, not_or] at hstop hstop'
    obtain ⟨heq', hown'⟩ := ih' hkey hkey' (fun cause => (hstop cause).2) fun cause => (hstop' cause).2
    have hinline := fun cause => (hstop cause).1
    have hinline' := fun cause => (hstop' cause).1
    rw [selectionsSteps, selectionsSteps, List.findSome?_append, List.findSome?_append, findSome?_inline hkey hinline,
      findSome?_inline hkey' hinline', inside.typenameKey?_eq, heq']
    cases hk : typenameKey? inner with
    | some own =>
      refine ⟨rfl, fun own' ho => ?_⟩
      obtain ⟨f, sub, hf, -, rfl⟩ := exists_of_typenameKey? hk
      refine ⟨⟨conditions ++ condition.toList, f, sub⟩, ?_, Option.some.inj ho⟩
      exact mem_metIn_of_inline List.mem_cons_self (mem_metIn_of_mem hf)
    | none =>
      have hin : ∀ {g : Frame} {own : List Selection}, g.typenameKey = none → typenameKey? own = none →
          ((g.enter schema condition).inSet own).typenameKey = none := by
        intro g own hg hown
        rw [Frame.typenameKey_inSet, hown, Option.none_or, typenameKey_enter, hg]
      obtain ⟨heq, hown⟩ := ih (hin hkey hk) (hin hkey' (inside.typenameKey?_eq.trans hk))
        (fun cause hs => hinline cause ((mem_selectionSteps_inline hinline).2 (.inr hs)))
        fun cause hs => hinline' cause ((mem_selectionSteps_inline hinline').2 (.inr hs))
      rw [Option.none_or, Option.none_or, heq]
      refine ⟨rfl, fun own ho => ?_⟩
      rcases Option.or_eq_some_iff.1 ho with ho | ⟨-, ho⟩
      · obtain ⟨m, hm, hk⟩ := hown own ho
        exact ⟨m, mem_metIn_of_inline List.mem_cons_self hm, hk⟩
      · obtain ⟨m, hm, hk⟩ := hown' own ho
        exact ⟨m, List.mem_append_right _ hm, hk⟩
  | spread _ ih =>
    rw [selectionsSteps, selectionSteps, List.nil_append] at hstop hstop' ⊢
    rw [selectionsSteps, selectionSteps, List.nil_append]
    exact ih hkey hkey' hstop hstop'
  | name _ ih =>
    rw [selectionsSteps, askName, selectionSteps, List.singleton_append] at hstop' ⊢
    simp only [List.mem_cons, not_or] at hstop'
    rw [findSome?_field]
    exact ih hkey hkey' hstop fun cause => (hstop' cause).2

/-- The key for type names of a set is the one in force, or the first one that a fragment brings. -/
theorem namingKey_eq_or (hne : selections ≠ [])
    (hstop : ∀ cause, Step.stop cause ∉ setSteps schema [] selections frame) :
    namingKey schema selections frame = (frame.inSet selections).typenameKey.or
      ((selectionsSteps schema [] selections (frame.inSet selections)).findSome? Step.typenameKey?) := by
  rw [namingKey, setSteps_of_ne_nil [] hne, if_neg (lacksTypename_of_not_stop hstop), List.findSome?_cons,
    Step.typenameKey?]
  cases (frame.inSet selections).typenameKey <;> rfl

end

end FixtureCheck.Fixture
