import FixtureCheck.Proofs.Response.Replaced
import FixtureCheck.Proofs.Walk.Named

/-!
# Selections that ask for more names of types

`Asks` relates selections to those with plain `__typename` fields added to sets below fields. A walk through such
selections is not cut off if it was not before (`isOk_selectionsSteps`). `ComesTo` goes into the fragments of both at
once, to a field and the one that stands beside it (`Asks.exists_comesTo`).
-/

namespace FixtureCheck.Fixture

open GraphQL (Schema Field Selection OutputField AreTyped)
open Expectation

/-- The field that asks for names of types, under its own name. -/
def askName : Selection := .field ⟨none, "__typename", [], []⟩ []

/-- **Are selections others with names of types asked for** in sets below fields, and if `direct` in the set itself? -/
inductive Asks : Bool → List Selection → List Selection → Prop where
  | nil (direct : Bool) : Asks direct [] []
  | field {direct : Bool} {f : Field} {inner inner' rest rest' : List Selection} (below : Asks true inner inner')
      (nil_iff : inner = [] ↔ inner' = []) (next : Asks direct rest rest') :
      Asks direct (.field f inner :: rest) (.field f inner' :: rest')
  | inline {direct : Bool} {condition : Option String} {directives : List GraphQL.Directive}
      {inner inner' rest rest' : List Selection} (inside : Asks false inner inner') (next : Asks direct rest rest') :
      Asks direct (.inline condition directives inner :: rest) (.inline condition directives inner' :: rest')
  | spread {direct : Bool} {name : String} {directives : List GraphQL.Directive} {rest rest' : List Selection}
      (next : Asks direct rest rest') : Asks direct (.spread name directives :: rest) (.spread name directives :: rest')
  | name {rest rest' : List Selection} (next : Asks true rest rest') : Asks true rest (askName :: rest')

namespace Asks

/-- Names need not be asked for. -/
theorem refl : ∀ (direct : Bool) (selections : List Selection), Asks direct selections selections
  | direct, [] => .nil direct
  | direct, .field _ inner :: rest => .field (refl true inner) .rfl (refl direct rest)
  | direct, .inline _ _ inner :: rest => .inline (refl false inner) (refl direct rest)
  | direct, .spread _ _ :: rest => .spread (refl direct rest)

variable {direct : Bool} {selections selections' : List Selection}

theorem length_le (h : Asks direct selections selections') : selections.length ≤ selections'.length := by
  induction h with
  | nil direct => exact Nat.le_refl _
  | field _ _ _ _ ih => exact Nat.succ_le_succ ih
  | inline _ _ _ ih => exact Nat.succ_le_succ ih
  | spread _ ih => exact Nat.succ_le_succ ih
  | name _ ih => exact Nat.le_succ_of_le ih

/-- A longer set has a name asked for. -/
theorem askName_mem (h : Asks direct selections selections') (hlt : selections.length < selections'.length) :
    askName ∈ selections' := by
  induction h with
  | nil direct => exact absurd hlt (Nat.lt_irrefl _)
  | field _ _ _ _ ih => exact List.mem_cons_of_mem _ (ih (Nat.lt_of_succ_lt_succ hlt))
  | inline _ _ _ ih => exact List.mem_cons_of_mem _ (ih (Nat.lt_of_succ_lt_succ hlt))
  | spread _ ih => exact List.mem_cons_of_mem _ (ih (Nat.lt_of_succ_lt_succ hlt))
  | name _ _ => exact List.mem_cons_self

/-- A set without names asked for in it has the key that it had. -/
theorem typenameKey?_eq (h : Asks false selections selections') :
    typenameKey? selections' = typenameKey? selections := by
  generalize hdirect : false = direct at h
  induction h with
  | nil direct => rfl
  | field _ _ _ _ ih =>
    simp only [typenameKey?, List.findSome?_cons] at ih ⊢
    rw [ih hdirect]
  | inline _ _ _ ih => exact ih hdirect
  | spread _ ih => exact ih hdirect
  | name _ _ => cases hdirect

/-- A set that has a key for names of types has one with names asked for. -/
theorem isSome_typenameKey? (h : Asks direct selections selections') (hsome : (typenameKey? selections).isSome = true) :
    (typenameKey? selections').isSome = true := by
  induction h with
  | nil direct => exact hsome
  | field _ _ _ _ ih =>
    simp only [typenameKey?, List.findSome?_cons] at hsome ih ⊢
    split
    · rfl
    · rename_i hno
      rw [hno] at hsome
      exact ih hsome
  | inline _ _ _ ih => exact ih hsome
  | spread _ ih => exact ih hsome
  | name _ _ => rfl

theorem length_inlineFragments (h : Asks direct selections selections') :
    (inlineFragments selections').length = (inlineFragments selections).length := by
  induction h with
  | nil direct => rfl
  | field _ _ _ _ ih => exact ih
  | inline _ _ _ ih => exact congrArg (· + 1) ih
  | spread _ ih => exact ih
  | name _ ih => exact ih

/-- Selections with names asked for are typed if the selections are. -/
theorem areTyped {schema : Schema} (hw : schema.IsWellFormed) {parent : String}
    (h : Asks direct selections selections') (ht : AreTyped schema parent selections) :
    AreTyped schema parent selections' := by
  induction h generalizing parent with
  | nil direct => exact ht
  | field _ nil_iff _ ih ih' =>
    rw [AreTyped, Selection.IsTyped] at ht ⊢
    obtain ⟨⟨definition, hd, hinner⟩, hrest⟩ := ht
    refine ⟨⟨definition, hd, ?_⟩, ih' hrest⟩
    rcases hinner with ⟨hleaf, hnil⟩ | ⟨hcomposite, hne, ht⟩
    · exact .inl ⟨hleaf, nil_iff.1 hnil⟩
    · exact .inr ⟨hcomposite, mt nil_iff.2 hne, ih ht⟩
  | inline _ _ ih ih' =>
    rw [AreTyped, Selection.IsTyped] at ht ⊢
    exact ⟨⟨ht.1.1, ih ht.1.2⟩, ih' ht.2⟩
  | spread _ ih =>
    rw [AreTyped] at ht ⊢
    exact ⟨ht.1, ih ht.2⟩
  | name _ ih =>
    rw [AreTyped, askName, Selection.IsTyped]
    exact ⟨⟨_, fieldOf?_typename _, .inl ⟨GraphQL.Schema.typeIs_iff.2 ⟨.scalar, hw.text, rfl⟩, rfl⟩⟩, ih ht⟩

end Asks

/-! ## Walks that are not cut off -/

section

variable {schema : Schema} {direct : Bool} {selections selections' : List Selection}
  {conditions conditions' : List String} {frame frame' : Frame}

/-- A set with names asked for does not lack them if it did not before. -/
theorem Asks.lacksTypename_eq_false (h : Asks direct selections selections') (htype : frame'.type = frame.type)
    (hno : ¬ lacksTypename schema frame selections = true) : ¬ lacksTypename schema frame' selections' = true := by
  unfold lacksTypename at hno ⊢
  rw [h.length_inlineFragments, htype]
  simp only [Bool.and_eq_true, Option.isNone_iff_eq_none, decide_eq_true_eq, not_and] at hno ⊢
  rintro ⟨habstract, hnone⟩
  refine hno ⟨habstract, ?_⟩
  cases hkey : typenameKey? selections with
  | none => rfl
  | some key =>
    have hsome := h.isSome_typenameKey? (by rw [hkey]; rfl)
    rw [hnone] at hsome
    cases hsome

theorem lacksTypename_nil (frame : Frame) : ¬ lacksTypename schema frame [] = true := by
  simp [lacksTypename, inlineFragments]

/-- A walk that is not stopped at a set has the names of types that it needs there. -/
theorem lacksTypename_of_not_stop (hstop : ∀ cause, Step.stop cause ∉ setSteps schema conditions selections frame) :
    ¬ lacksTypename schema frame selections = true := by
  intro hlacks
  by_cases hnil : selections = []
  · subst hnil
    exact lacksTypename_nil frame hlacks
  · refine hstop (.missingTypename frame.type) ?_
    rw [setSteps_of_ne_nil conditions hnil, if_pos hlacks]
    exact List.mem_singleton_self _

/-- The steps of a walk through a set are entering it and going through the selections in it. -/
theorem mem_setSteps_iff (hlacks : ¬ lacksTypename schema frame selections = true) {s : Step} :
    s ∈ setSteps schema conditions selections frame ↔
      (selections ≠ [] ∧ s = .set conditions (frame.inSet selections) selections) ∨
        s ∈ selectionsSteps schema conditions selections (frame.inSet selections) := by
  by_cases hnil : selections = []
  · subst hnil
    simp [setSteps, selectionsSteps]
  · rw [setSteps_of_ne_nil conditions hnil, if_neg hlacks, List.mem_cons]
    simp [hnil]

theorem not_stop_of_isOk {steps : List Step} (h : ∀ s ∈ steps, s.IsOk schema) (cause : Abort) :
    Step.stop cause ∉ steps := by
  intro hs
  obtain ⟨change, hc⟩ := h _ hs
  cases hc

/-- A walk is not cut off at a set with names asked for if it is not at the set and not at the selections in it. -/
theorem isOk_setSteps_of (h : Asks direct selections selections') (htype : frame'.type = frame.type)
    (hrows : (∀ s ∈ selectionsSteps schema conditions selections (frame.inSet selections), s.IsOk schema) →
      ∀ s ∈ selectionsSteps schema conditions' selections' (frame'.inSet selections'), s.IsOk schema)
    (hok : ∀ s ∈ setSteps schema conditions selections frame, s.IsOk schema) :
    ∀ s ∈ setSteps schema conditions' selections' frame', s.IsOk schema := by
  have hlacks := lacksTypename_of_not_stop (not_stop_of_isOk hok)
  intro s hs
  rcases (mem_setSteps_iff (h.lacksTypename_eq_false htype hlacks)).1 hs with ⟨-, rfl⟩ | hs
  · exact ⟨_, rfl⟩
  · exact hrows (fun s hs => hok s ((mem_setSteps_iff hlacks).2 (.inr hs))) s hs

theorem type_inSet (frame : Frame) (selections : List Selection) : (frame.inSet selections).type = frame.type :=
  type_withTypenameKey ..

theorem typenameKey_enter (schema : Schema) (frame : Frame) (condition : Option String) :
    (frame.enter schema condition).typenameKey = frame.typenameKey := by
  cases condition <;> rfl

/-- **A walk through selections with names asked for is not cut off** if it is not without. -/
theorem isOk_selectionsSteps (h : Asks direct selections selections') (htype : frame'.type = frame.type)
    (hok : ∀ s ∈ selectionsSteps schema conditions selections frame, s.IsOk schema) :
    ∀ s ∈ selectionsSteps schema conditions' selections' frame', s.IsOk schema := by
  induction h generalizing conditions conditions' frame frame' with
  | nil direct => exact hok
  | @field direct f inner inner' rest rest' below nil_iff next ih ih' =>
    rw [selectionsSteps, selectionSteps, List.singleton_append, List.forall_mem_cons] at hok ⊢
    refine ⟨?_, ih' htype hok.2⟩
    obtain ⟨definition, hd, hinner⟩ := isOk_field_iff.1 hok.1
    refine isOk_field_iff.2 ⟨definition, by rw [htype]; exact hd, ?_⟩
    rcases hinner with hnil | ⟨child, hchild⟩
    · exact .inl (nil_iff.1 hnil)
    · right
      rw [walkBelow, walkSet_eq_run schema []] at hchild ⊢
      have htype' : (frame'.below schema f.key definition).type = (frame.below schema f.key definition).type := rfl
      refine exists_run (isOk_setSteps_of below htype' (fun hrows => ih ?_ hrows) (change_of_run hchild)) _
      rw [type_inSet, type_inSet, htype']
  | @inline direct condition directives inner inner' rest rest' inside next ih ih' =>
    rw [selectionsSteps, List.forall_mem_append] at hok ⊢
    refine ⟨?_, ih' htype hok.2⟩
    have hfirst := hok.1
    rw [selectionSteps] at hfirst ⊢
    cases hc : condition.filter fun name => (schema.type? name).isNone with
    | some name =>
      rw [hc] at hfirst
      exact absurd (List.mem_singleton_self _) (not_stop_of_isOk hfirst _)
    | none =>
      rw [hc] at hfirst
      have hentered : (frame'.enter schema condition).type = (frame.enter schema condition).type := by
        rw [type_enter, type_enter, htype]
      refine isOk_setSteps_of inside hentered (fun hrows => ih ?_ hrows) hfirst
      rw [type_inSet, type_inSet, hentered]
  | spread _ ih =>
    rw [selectionsSteps, selectionSteps, List.nil_append] at hok ⊢
    exact ih htype hok
  | name _ ih =>
    rw [selectionsSteps, askName, selectionSteps, List.singleton_append, List.forall_mem_cons]
    exact ⟨isOk_field_iff.2 ⟨_, fieldOf?_typename _, .inl rfl⟩, ih htype hok⟩

/-! ## Steps at selections -/

/-- The steps at a selection are among those of the selections in a row. -/
theorem mem_selectionsSteps_of_mem {selection : Selection} {s : Step} (hmem : selection ∈ selections)
    (hs : s ∈ selectionSteps schema conditions selection frame) :
    s ∈ selectionsSteps schema conditions selections frame := by
  induction selections with
  | nil => cases hmem
  | cons first rest ih =>
    rw [selectionsSteps, List.mem_append]
    rcases List.mem_cons.1 hmem with rfl | hmem
    · exact .inl hs
    · exact .inr (ih hmem)

/-- A walk that is not stopped at a fragment goes through the selections in it. -/
theorem mem_selectionSteps_inline {condition : Option String} {directives : List GraphQL.Directive}
    {inner : List Selection}
    (hstop : ∀ cause, Step.stop cause ∉ selectionSteps schema conditions (.inline condition directives inner) frame)
    {s : Step} :
    s ∈ selectionSteps schema conditions (.inline condition directives inner) frame ↔
      (inner ≠ [] ∧ s = .set (conditions ++ condition.toList) ((frame.enter schema condition).inSet inner) inner) ∨
        s ∈ selectionsSteps schema (conditions ++ condition.toList) inner
          ((frame.enter schema condition).inSet inner) := by
  rw [selectionSteps] at hstop ⊢
  cases hc : condition.filter fun name => (schema.type? name).isNone with
  | some name =>
    simp only [hc] at hstop
    exact absurd (List.mem_singleton_self _) (hstop _)
  | none =>
    simp only [hc] at hstop
    exact mem_setSteps_iff (lacksTypename_of_not_stop hstop)

/-- The fields met in a fragment are met in the selections around it. -/
theorem mem_metIn_of_inline {condition : Option String} {directives : List GraphQL.Directive}
    {inner : List Selection} {m : Met} (hmem : .inline condition directives inner ∈ selections)
    (hm : m ∈ metIn (conditions ++ condition.toList) inner) : m ∈ metIn conditions selections := by
  induction selections with
  | nil => cases hmem
  | cons first rest ih =>
    rw [metIn, List.mem_append]
    rcases List.mem_cons.1 hmem with rfl | hmem
    · rw [metAt]
      exact .inl hm
    · exact .inr (ih hmem)

end

/-! ## Fields beside fields -/

/-- **A walk through selections comes to a field, and beside it a walk through selections with names asked for** comes
to the field with selections `below`. The one has narrowed its frame then, the other has a key for type names. -/
inductive ComesTo (schema : Schema) : List String → List Selection → Frame → List Selection → Option String → Met →
    Frame → List Selection → Option String → Prop where
  | field {conditions : List String} {selections selections' inner below : List Selection} {frame : Frame}
      {key : Option String} {f : Field} (mem : .field f inner ∈ selections) (mem' : .field f below ∈ selections')
      (asks : Asks true inner below) (nil_iff : inner = [] ↔ below = []) :
      ComesTo schema conditions selections frame selections' key ⟨conditions, f, inner⟩ frame below key
  | inline {conditions : List String} {selections selections' inner inner' below : List Selection}
      {frame narrowed : Frame} {key key' condition : Option String} {directives : List GraphQL.Directive} {m : Met}
      (mem : .inline condition directives inner ∈ selections)
      (mem' : .inline condition directives inner' ∈ selections') (inside : Asks false inner inner')
      (next : ComesTo schema (conditions ++ condition.toList) inner ((frame.enter schema condition).inSet inner) inner'
        ((typenameKey? inner).or key) m narrowed below key') :
      ComesTo schema conditions selections frame selections' key m narrowed below key'

section

variable {schema : Schema} {direct : Bool} {conditions : List String}
  {selections selections' more more' below : List Selection} {frame narrowed : Frame} {key key' : Option String}
  {m : Met}

namespace ComesTo

theorem mono (h : ComesTo schema conditions selections frame selections' key m narrowed below key')
    (hmore : ∀ s ∈ selections, s ∈ more) (hmore' : ∀ s ∈ selections', s ∈ more') :
    ComesTo schema conditions more frame more' key m narrowed below key' := by
  cases h with
  | field mem mem' asks nil_iff => exact .field (hmore _ mem) (hmore' _ mem') asks nil_iff
  | inline mem mem' inside next => exact .inline (hmore _ mem) (hmore' _ mem') inside next

/-- The selections of the fields are such that names are asked for in the one and not in the other. -/
theorem asks (h : ComesTo schema conditions selections frame selections' key m narrowed below key') :
    Asks true m.selections below ∧ (m.selections = [] ↔ below = []) := by
  induction h with
  | field _ _ asks nil_iff => exact ⟨asks, nil_iff⟩
  | inline _ _ _ _ ih => exact ih

/-- The field with names asked for below is met under the same conditions. -/
theorem mem_metIn' (h : ComesTo schema conditions selections frame selections' key m narrowed below key') :
    ⟨m.conditions, m.field, below⟩ ∈ metIn conditions selections' := by
  induction h with
  | field _ mem' _ _ => exact mem_metIn_of_mem mem'
  | inline _ mem' _ _ ih => exact mem_metIn_of_inline mem' ih

/-- A walk that is not stopped looks at the field. -/
theorem step_mem (h : ComesTo schema conditions selections frame selections' key m narrowed below key')
    (hstop : ∀ cause, Step.stop cause ∉ selectionsSteps schema conditions selections frame) :
    .field m.conditions narrowed m.field m.selections ∈ selectionsSteps schema conditions selections frame := by
  induction h with
  | field mem _ _ _ => exact field_mem_selectionsSteps mem
  | inline mem _ _ _ ih =>
    have hinline := fun cause hs => hstop cause (mem_selectionsSteps_of_mem mem hs)
    have hinside : ∀ cause, Step.stop cause ∉ selectionsSteps schema _ _ _ := fun cause hs =>
      hinline cause ((mem_selectionSteps_inline hinline).2 (.inr hs))
    exact mem_selectionsSteps_of_mem mem ((mem_selectionSteps_inline hinline).2 (.inr (ih hinside)))

/-- There is a key for type names beside each field for which there is one. -/
theorem isSome_key (h : ComesTo schema conditions selections frame selections' key m narrowed below key')
    (hkey : frame.typenameKey.isSome = true → key.isSome = true) :
    narrowed.typenameKey.isSome = true → key'.isSome = true := by
  induction h with
  | field _ _ _ _ => exact hkey
  | inline _ _ _ _ ih =>
    refine ih fun hsome => ?_
    rw [Frame.typenameKey_inSet, typenameKey_enter, Option.isSome_or, Bool.or_eq_true] at hsome
    rw [Option.isSome_or, Bool.or_eq_true]
    exact hsome.imp_right hkey

end ComesTo

/-- **Beside each field that a walk looks at stands one in the selections with names asked for.** -/
theorem Asks.exists_comesTo (h : Asks direct selections selections') {f : Field} {inner : List Selection}
    {conditions' : List String} (hstop : ∀ cause, Step.stop cause ∉ selectionsSteps schema conditions selections frame)
    (hs : .field conditions' narrowed f inner ∈ selectionsSteps schema conditions selections frame)
    (key : Option String) : ∃ below key', ComesTo schema conditions selections frame selections' key
      ⟨conditions', f, inner⟩ narrowed below key' := by
  induction h generalizing conditions frame key with
  | nil direct => simp [selectionsSteps] at hs
  | field below nil_iff next _ ih =>
    rw [selectionsSteps] at hs hstop
    simp only [selectionSteps, List.mem_append, List.mem_singleton, not_or] at hs hstop
    rcases hs with hs | hs
    · cases hs
      exact ⟨_, key, .field List.mem_cons_self List.mem_cons_self below nil_iff⟩
    · obtain ⟨below, key', hc⟩ := ih (fun cause => (hstop cause).2) hs key
      exact ⟨below, key', hc.mono (fun _ => List.mem_cons_of_mem _) fun _ => List.mem_cons_of_mem _⟩
  | inline inside next ih ih' =>
    rw [selectionsSteps] at hs hstop
    simp only [List.mem_append, not_or] at hs hstop
    rcases hs with hs | hs
    · have hinline := fun cause => (hstop cause).1
      rcases (mem_selectionSteps_inline hinline).1 hs with ⟨-, hset⟩ | hs
      · cases hset
      · have hinside := fun cause hs => hinline cause ((mem_selectionSteps_inline hinline).2 (.inr hs))
        obtain ⟨below, key', hc⟩ := ih hinside hs _
        exact ⟨below, key', .inline List.mem_cons_self List.mem_cons_self inside hc⟩
    · obtain ⟨below, key', hc⟩ := ih' (fun cause => (hstop cause).2) hs key
      exact ⟨below, key', hc.mono (fun _ => List.mem_cons_of_mem _) fun _ => List.mem_cons_of_mem _⟩
  | spread _ ih =>
    rw [selectionsSteps] at hs hstop
    simp only [selectionSteps, List.nil_append] at hs hstop
    obtain ⟨below, key', hc⟩ := ih hstop hs key
    exact ⟨below, key', hc.mono (fun _ => List.mem_cons_of_mem _) fun _ => List.mem_cons_of_mem _⟩
  | name _ ih =>
    obtain ⟨below, key', hc⟩ := ih hstop hs key
    exact ⟨below, key', hc.mono (fun _ => id) fun _ => List.mem_cons_of_mem _⟩

end

end FixtureCheck.Fixture
