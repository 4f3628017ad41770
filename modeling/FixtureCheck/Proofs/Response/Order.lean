import FixtureCheck.Proofs.Response.Agree

/-!
# The steps of selections in another order

If all `__typename` fields in a selection set have one key, the steps of a walk through the set agree with those through
the set in another order (`agree_setSteps`). For fields this is by induction: the walks below correspond because the
steps there agree (`corresponds_walkBelow`). So walks through both sets correspond (`walkSet_reordered`).
-/

namespace FixtureCheck.Fixture

open GraphQL (Schema Field Selection OutputField Reordered)
open Expectation

/-! ## Selections and what stands in them -/

/-- A selection without the selections in it. -/
def head : Selection → Selection
  | .field f _ => .field f []
  | .inline condition directives _ => .inline condition directives []
  | .spread name directives => .spread name directives

section

variable {selections selections' : List Selection} {K : String}

theorem perm_heads (h : Reordered selections selections') : (selections.map head).Perm (selections'.map head) := by
  induction h with
  | nil => exact .nil
  | field _ _ _ ih => exact ih.cons _
  | inline _ _ _ ih => exact ih.cons _
  | spread _ ih => exact ih.cons _
  | swap first second rest => exact .swap _ _ _
  | trans _ _ ih ih' => exact ih.trans ih'

theorem fieldsIn_of_reordered (h : Reordered selections selections') :
    ∀ f, f ∈ fieldsIn selections ↔ f ∈ fieldsIn selections' := by
  induction h with
  | nil => exact fun _ => .rfl
  | field _ _ ih ih' => simp only [fieldsIn, fieldsAt, List.mem_append, List.mem_cons, ih, ih', implies_true]
  | inline _ _ ih ih' => simp only [fieldsIn, fieldsAt, List.mem_append, ih, ih', implies_true]
  | spread _ ih => simp only [fieldsIn, fieldsAt, List.mem_append, ih, implies_true]
  | swap first second rest =>
    intro f
    simp only [fieldsIn, List.mem_append]
    tauto
  | trans _ _ ih ih' => exact fun f => (ih f).trans (ih' f)

theorem HasKey.of_reordered (hk : HasKey K selections) (h : Reordered selections selections') : HasKey K selections' :=
  fun f hf => hk f ((fieldsIn_of_reordered h f).2 hf)

theorem length_inlineFragments (h : Reordered selections selections') :
    (inlineFragments selections).length = (inlineFragments selections').length := by
  have hheads : ∀ set : List Selection, (inlineFragments set).length = (inlineFragments (set.map head)).length := by
    intro set
    rw [inlineFragments, inlineFragments, List.filter_map, List.length_map]
    congr 2
    funext s
    cases s <;> rfl
  rw [hheads selections, hheads selections']
  exact ((perm_heads h).filter _).length_eq

/-- The response key of a selection that is a `__typename` field. -/
def typenameKeyAt? : Selection → Option String
  | .field f _ => if f.name == "__typename" then some f.key else none
  | _ => none

theorem typenameKey?_eq_some_iff (hk : HasKey K selections) {key : String} :
    typenameKey? selections = some key ↔ ∃ h ∈ selections.map head, typenameKeyAt? h = some key := by
  have hunique : ∀ s ∈ selections, ∀ key, typenameKeyAt? s = some key → key = K := by
    intro s hs key hkey
    cases s with
    | field f sub =>
      simp only [typenameKeyAt?, Option.ite_none_right_eq_some, beq_iff_eq, Option.some.injEq] at hkey
      obtain ⟨hname, rfl⟩ := hkey
      exact hk f (mem_fieldsIn_of_mem hs) hname
    | inline condition directives sub => cases hkey
    | spread name directives => cases hkey
  have hhead : ∀ s, typenameKeyAt? (head s) = typenameKeyAt? s := fun s => by cases s <;> rfl
  have hfirst : typenameKey? selections = selections.findSome? typenameKeyAt? := rfl
  rw [hfirst, findSome?_eq_some_iff_of_unique hunique]
  simp only [List.mem_map, exists_exists_and_eq_and, hhead]

theorem typenameKey?_of_reordered (hk : HasKey K selections) (h : Reordered selections selections') :
    typenameKey? selections = typenameKey? selections' := by
  refine Option.ext fun key => ?_
  rw [typenameKey?_eq_some_iff hk, typenameKey?_eq_some_iff (hk.of_reordered h)]
  exact exists_congr fun s => and_congr_left fun _ => (perm_heads h).mem_iff

theorem lacksTypename_of_reordered (schema : Schema) (frame : Frame) (hk : HasKey K selections)
    (h : Reordered selections selections') :
    lacksTypename schema frame selections = lacksTypename schema frame selections' := by
  rw [lacksTypename, lacksTypename, typenameKey?_of_reordered hk h, length_inlineFragments h]

end

/-! ## Steps -/

section

variable {schema : Schema} {K : String} {selections selections' : List Selection} {frame : Frame}

theorem setSteps_of_ne_nil (conditions : List String) (hne : selections ≠ []) :
    setSteps schema conditions selections frame =
      if lacksTypename schema frame selections then [.stop (.missingTypename frame.type)]
      else .set conditions (frame.inSet selections) selections ::
        selectionsSteps schema conditions selections (frame.inSet selections) := by
  cases selections with
  | nil => exact absurd rfl hne
  | cons first rest => rw [setSteps, selectionsSteps]

/-- The steps in a set have the key of the set and of the frame for type names. -/
theorem areNamedBy_setSteps (conditions : List String) (hu : frame.UsesKey K) (hk : HasKey K selections) :
    AreNamedBy K (setSteps schema conditions selections frame) := by
  intro s hs key hkey
  cases s with
  | stop cause => cases hkey
  | field conditions' narrowed f inner => cases hkey
  | set conditions' narrowed inner => exact (narrows_of_mem_setSteps rfl hu hk hs).usesKey key hkey

/-- A step into a set finds the same, whatever the order in the set. -/
theorem follows_set (conditions : List String) (narrowed : Frame) (inner inner' : List Selection) :
    Follows schema [.set conditions narrowed inner] [.set conditions narrowed inner'] := by
  refine ⟨fun s hs => ?_, fun _ s hs => ?_, fun _ => .refl _⟩
  · obtain rfl := List.mem_singleton.1 hs
    refine ⟨fun k hk => hk.elim, fun P k hk => hk.elim, fun key hk => ⟨_, List.mem_singleton_self _, hk⟩, ?_⟩
    rintro scope ⟨child, hadds, -⟩
    exact hadds.elim
  · obtain rfl := List.mem_singleton.1 hs
    exact ⟨_, rfl⟩

/-- Steps in a set agree if those of its selections do. -/
theorem agree_setSteps_of_selections (hk : HasKey K selections) (hr : Reordered selections selections')
    (hu : frame.UsesKey K) (conditions : List String)
    (h : ∀ {inner : Frame}, inner.UsesKey K →
      Agree schema (selectionsSteps schema conditions selections inner)
        (selectionsSteps schema conditions selections' inner)) :
    Agree schema (setSteps schema conditions selections frame) (setSteps schema conditions selections' frame) := by
  by_cases hne : selections = []
  · rw [hne, hr.eq_nil_iff.1 hne]
    exact .refl _
  · have hin : frame.inSet selections = frame.inSet selections' := by
      rw [Frame.inSet, Frame.inSet, typenameKey?_of_reordered hk hr]
    rw [setSteps_of_ne_nil conditions hne, setSteps_of_ne_nil conditions (mt hr.eq_nil_iff.2 hne),
      lacksTypename_of_reordered schema frame hk hr, ← hin]
    split
    · exact .refl _
    · have hset : Agree schema [.set conditions (frame.inSet selections) selections]
          [.set conditions (frame.inSet selections) selections'] := ⟨follows_set .., follows_set ..⟩
      exact hset.append (h (Frame.Narrows.inSet hu hk.typenameKey?).usesKey)

/-- Does a walk below a field correspond to another one: is it not cut off if that is not, and are its mismatches the
same, and has its tree a scope for each one there? -/
def Corresponds (walk walk' : Checking Expectation) : Prop :=
  ∀ tree', walk'.outcome = .ok tree' →
    ∃ tree, walk.outcome = .ok tree ∧ walk.errors.Perm walk'.errors ∧ tree.Covers tree'

theorem isOk_field_iff {conditions : List String} {f : Field} {inner : List Selection} :
    (Step.field conditions frame f inner).IsOk schema ↔
      ∃ definition, schema.fieldOf? (some frame.type) f.name = some definition ∧
        (inner = [] ∨ ∃ child, (walkBelow schema frame f definition inner).outcome = .ok child) := by
  constructor
  · rintro ⟨change, hc⟩
    obtain ⟨definition, hd, ⟨hnil, -⟩ | ⟨-, child, hchild, -⟩⟩ := change_field hc
    · exact ⟨definition, hd, .inl hnil⟩
    · exact ⟨definition, hd, .inr ⟨child, hchild⟩⟩
  · rintro ⟨definition, hd, h⟩
    rw [Step.IsOk, Step.change]
    simp only [hd]
    cases inner with
    | nil => exact ⟨_, rfl⟩
    | cons first rest =>
      obtain ⟨child, hchild⟩ := h.resolve_left (List.cons_ne_nil _ _)
      simp only [List.isEmpty_cons, Bool.false_eq_true, ↓reduceIte, hchild]
      exact ⟨_, rfl⟩

/-- A step to a field follows another one if the walk below does. -/
theorem follows_field (conditions : List String) (f : Field) {inner inner' : List Selection}
    (hnil : inner = [] ↔ inner' = [])
    (h : ∀ definition,
      Corresponds (walkBelow schema frame f definition inner) (walkBelow schema frame f definition inner')) :
    Follows schema [.field conditions frame f inner] [.field conditions frame f inner'] := by
  refine ⟨fun s hs => ?_, fun hok s hs => ?_, fun hok => ?_⟩
  · obtain rfl := List.mem_singleton.1 hs
    have hmem := List.mem_singleton_self (Step.field conditions frame f inner)
    refine ⟨fun k hk => ⟨_, hmem, hk⟩, fun P k hk => ⟨_, hmem, hk⟩, fun key hk => (nomatch hk), ?_⟩
    rintro scope ⟨child', ⟨hne, definition, hd, hchild'⟩, hscope⟩
    obtain ⟨child, hchild, -, hcovers⟩ := h definition child' hchild'
    obtain ⟨scope', hscope', hm⟩ := hcovers scope hscope
    exact ⟨_, hmem, scope', ⟨child, ⟨mt hnil.1 hne, definition, hd, hchild⟩, hscope'⟩, hm⟩
  · obtain rfl := List.mem_singleton.1 hs
    obtain ⟨definition, hd, hbelow⟩ := isOk_field_iff.1 (hok _ (List.mem_singleton_self _))
    refine isOk_field_iff.2 ⟨definition, hd, hbelow.imp hnil.2 ?_⟩
    rintro ⟨child', hchild'⟩
    obtain ⟨child, hchild, -⟩ := h definition child' hchild'
    exact ⟨child, hchild⟩
  · obtain ⟨definition, hd, hbelow⟩ := isOk_field_iff.1 (hok _ (List.mem_singleton_self _))
    rw [List.flatMap_singleton, List.flatMap_singleton, Step.errors, Step.errors]
    simp only [hd]
    refine .append_left _ ?_
    by_cases hne : inner = []
    · rw [hne, hnil.1 hne]
    · have hne' := mt hnil.2 hne
      obtain ⟨child', hchild'⟩ := hbelow.resolve_left hne'
      obtain ⟨child, -, herrors, -⟩ := h definition child' hchild'
      rw [if_neg (by simpa using hne), if_neg (by simpa using hne')]
      exact herrors

/-- Walks below a field correspond if the steps in their sets agree. -/
theorem corresponds_walkBelow {f : Field} {definition : OutputField} {inner inner' : List Selection}
    (hu : frame.UsesKey K) (hk : HasKey K inner')
    (h : Agree schema (setSteps schema [] inner' (frame.below schema f.key definition))
      (setSteps schema [] inner (frame.below schema f.key definition))) :
    Corresponds (walkBelow schema frame f definition inner) (walkBelow schema frame f definition inner') := by
  intro tree' hw'
  rw [walkBelow, walkSet_eq_run schema []] at hw'
  have hbelow : (frame.below schema f.key definition).UsesKey K := hu
  obtain ⟨tree, hw, herrors, hcovers, -⟩ :=
    run_of_agree h (areNamedBy_setSteps [] hbelow hk) (isFresh_holding ..) hw'
  refine ⟨tree, ?_, ?_, hcovers⟩
  · rw [walkBelow, walkSet_eq_run schema []]
    exact hw
  · rw [walkBelow, walkBelow, walkSet_eq_run schema [], walkSet_eq_run schema []]
    exact herrors.symm

/-- **The steps of selections in another order agree.** -/
theorem agree_selectionsSteps (hr : Reordered selections selections') : HasKey K selections →
    ∀ (conditions : List String) {frame : Frame}, frame.UsesKey K →
      Agree schema (selectionsSteps schema conditions selections frame)
        (selectionsSteps schema conditions selections' frame) := by
  induction hr with
  | nil => exact fun _ _ _ _ => .refl _
  | @field f inner inner' rest rest' below _ ih ih' =>
    intro hk conditions frame hu
    have hinner : HasKey K inner := fun g hg => hk g (List.mem_append_left _ (List.mem_cons_of_mem _ hg))
    have hrest : HasKey K rest := fun g hg => hk g (List.mem_append_right _ hg)
    have hbelow : ∀ definition, Agree schema (setSteps schema [] inner (frame.below schema f.key definition))
        (setSteps schema [] inner' (frame.below schema f.key definition)) := by
      intro definition
      have hu' : (frame.below schema f.key definition).UsesKey K := hu
      exact agree_setSteps_of_selections hinner below hu' [] (ih hinner [])
    have hfield : Agree schema [.field conditions frame f inner] [.field conditions frame f inner'] :=
      ⟨follows_field conditions f below.eq_nil_iff fun definition =>
          corresponds_walkBelow hu (hinner.of_reordered below) (hbelow definition).symm,
        follows_field conditions f below.eq_nil_iff.symm fun definition =>
          corresponds_walkBelow hu hinner (hbelow definition)⟩
    rw [selectionsSteps, selectionsSteps, selectionSteps, selectionSteps]
    exact hfield.append (ih' hrest conditions hu)
  | @inline condition directives inner inner' rest rest' below _ ih ih' =>
    intro hk conditions frame hu
    have hinner : HasKey K inner := fun g hg => hk g (List.mem_append_left _ hg)
    have hrest : HasKey K rest := fun g hg => hk g (List.mem_append_right _ hg)
    rw [selectionsSteps, selectionsSteps, selectionSteps, selectionSteps]
    refine .append ?_ (ih' hrest conditions hu)
    split
    · exact .refl _
    · exact agree_setSteps_of_selections hinner below (Frame.Narrows.enter hu condition).usesKey _ (ih hinner _)
  | @spread name directives rest rest' _ ih =>
    intro hk conditions frame hu
    have hrest : HasKey K rest := fun g hg => hk g (List.mem_append_right _ hg)
    rw [selectionsSteps, selectionsSteps]
    exact .append (.refl _) (ih hrest conditions hu)
  | swap first second rest =>
    intro _ conditions frame _
    simp only [selectionsSteps]
    exact .of_perm (List.perm_append_comm_assoc ..)
  | trans first _ ih ih' =>
    intro hk conditions frame hu
    exact (ih hk conditions hu).trans (ih' (hk.of_reordered first) conditions hu)

theorem agree_setSteps (hr : Reordered selections selections') (hk : HasKey K selections) (hu : frame.UsesKey K) :
    Agree schema (setSteps schema [] selections frame) (setSteps schema [] selections' frame) :=
  agree_setSteps_of_selections hk hr hu [] (agree_selectionsSteps hr hk [])

/-- **Walks through selections in another order are both cut off or both not**; if they are not, they report the same
mismatches up to their order, and each tree covers the other. -/
theorem walkSet_reordered (hr : Reordered selections selections') (hk : HasKey K selections) (hu : frame.UsesKey K)
    {e tree : Expectation} (he : e.IsFresh) (hw : (walkSet schema selections frame e).outcome = .ok tree) :
    ∃ tree', (walkSet schema selections' frame e).outcome = .ok tree' ∧
      (walkSet schema selections frame e).errors.Perm (walkSet schema selections' frame e).errors ∧
      tree'.Covers tree ∧ tree.Covers tree' := by
  simp only [walkSet_eq_run schema []] at hw ⊢
  exact run_of_agree (agree_setSteps hr hk hu) (areNamedBy_setSteps [] hu hk) he hw

end

end FixtureCheck.Fixture
