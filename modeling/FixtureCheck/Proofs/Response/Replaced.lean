import FixtureCheck.Proofs.Query.Rewritten
import FixtureCheck.Proofs.Walk.Findings

/-!
# Selection sets that find the same

Selection sets in a frame find the same for a scope if their steps do (`FindsSame`). `ReplacedIn` closes a rule for
selection sets, each in the frame that a walk enters it in, under the fields and fragments around them. If the sets that
the rule relates find the same, so do all sets with them inside (`ReplacedIn.findsSame`), and checks of documents whose
operations are related come to one verdict (`check_replaced`).
-/

namespace FixtureCheck.Fixture

open GraphQL (Schema Document Field Selection Operation OutputField)
open Expectation

/-! ## Sets in one frame -/

/-- **Do selection sets find the same in a frame**, for a scope that holds objects and has a key for type names? If they
do not cut the walk off, they also bring the same key first. -/
structure FindsSame (schema : Schema) (key : Option String) (objects : List Located) (frame : Frame)
    (selections selections' : List Selection) : Prop where
  nil_iff : selections = [] ↔ selections' = []
  found : ∀ conditions, foundBy schema key objects (setSteps schema conditions selections frame) =
    foundBy schema key objects (setSteps schema conditions selections' frame)
  naming : ∀ conditions, .cutOff ∉ foundBy schema key objects (setSteps schema conditions selections frame) →
    (setSteps schema conditions selections frame).findSome? Step.typenameKey? =
      (setSteps schema conditions selections' frame).findSome? Step.typenameKey?

section

variable {schema : Schema} {key : Option String} {objects : List Located} {frame : Frame}
  {selections between selections' : List Selection}

namespace FindsSame

theorem refl (selections : List Selection) : FindsSame schema key objects frame selections selections :=
  ⟨.rfl, fun _ => rfl, fun _ _ => rfl⟩

theorem trans (h : FindsSame schema key objects frame selections between)
    (h' : FindsSame schema key objects frame between selections') :
    FindsSame schema key objects frame selections selections' := by
  refine ⟨h.nil_iff.trans h'.nil_iff, fun conditions => (h.found conditions).trans (h'.found conditions), ?_⟩
  intro conditions hcut
  rw [h.naming conditions hcut]
  rw [h.found conditions] at hcut
  exact h'.naming conditions hcut

/-- Walks through sets below one field find the same if the sets do. -/
theorem found_walkSet_eq (h : FindsSame schema (namingKey schema selections frame) frame.objects frame selections
      selections') (name : Option String) :
    (walkSet schema selections frame (.holding name frame.values)).found =
      (walkSet schema selections' frame (.holding name frame.values)).found := by
  rw [found_walkSet, found_walkSet]
  have hfound := h.found []
  by_cases hcut : .cutOff ∈ foundBy schema (namingKey schema selections frame) frame.objects
      (setSteps schema [] selections frame)
  · have hcut' : .cutOff ∈ foundBy schema (namingKey schema selections' frame) frame.objects
        (setSteps schema [] selections' frame) := by
      rw [hfound, cutOff_mem_foundBy] at hcut
      exact cutOff_mem_foundBy.2 hcut
    rw [foundBy_eq_univ hcut, foundBy_eq_univ hcut']
  · have hkey : namingKey schema selections frame = namingKey schema selections' frame := h.naming [] hcut
    rw [hfound, hkey]

end FindsSame

/-! ## Sets with some selections replaced -/

theorem selectionsSteps_append (conditions : List String) (frame : Frame) : ∀ before after : List Selection,
    selectionsSteps schema conditions (before ++ after) frame =
      selectionsSteps schema conditions before frame ++ selectionsSteps schema conditions after frame
  | [], _ => by rw [selectionsSteps]; rfl
  | first :: before, after => by
    rw [List.cons_append, selectionsSteps, selectionsSteps, selectionsSteps_append, List.append_assoc]

theorem selectionsSteps_singleton (conditions : List String) (frame : Frame) (selection : Selection) :
    selectionsSteps schema conditions [selection] frame = selectionSteps schema conditions selection frame := by
  rw [selectionsSteps, selectionsSteps, List.append_nil]

section

variable {before run run' after : List Selection}

/-- Sets find the same if they differ in a run of selections, by which they are not told apart from outside. -/
theorem findsSame_of_run (hne : run ≠ []) (hne' : run' ≠ [])
    (hkey : typenameKey? (before ++ (run ++ after)) = typenameKey? (before ++ (run' ++ after)))
    (hfragments : (inlineFragments (before ++ (run ++ after))).length =
      (inlineFragments (before ++ (run' ++ after))).length)
    (hfound : ∀ conditions, foundBy schema key objects (selectionsSteps schema conditions run
        (frame.inSet (before ++ (run ++ after)))) =
      foundBy schema key objects (selectionsSteps schema conditions run' (frame.inSet (before ++ (run ++ after)))))
    (hnaming : ∀ conditions, .cutOff ∉ foundBy schema key objects (selectionsSteps schema conditions run
        (frame.inSet (before ++ (run ++ after)))) →
      (selectionsSteps schema conditions run (frame.inSet (before ++ (run ++ after)))).findSome? Step.typenameKey? =
        (selectionsSteps schema conditions run' (frame.inSet (before ++ (run ++ after)))).findSome?
          Step.typenameKey?) :
    FindsSame schema key objects frame (before ++ (run ++ after)) (before ++ (run' ++ after)) := by
  have hlacks : lacksTypename schema frame (before ++ (run' ++ after)) =
      lacksTypename schema frame (before ++ (run ++ after)) := by
    rw [lacksTypename, lacksTypename, hkey, hfragments]
  have hin : frame.inSet (before ++ (run' ++ after)) = frame.inSet (before ++ (run ++ after)) := by
    rw [Frame.inSet, Frame.inSet, hkey]
  refine ⟨by simp [hne, hne'], fun conditions => ?_, fun conditions hcut => ?_⟩
  · rw [setSteps_of_ne_nil conditions (by simp [hne]), setSteps_of_ne_nil conditions (by simp [hne']), hlacks, hin]
    split
    · rfl
    · simp only [selectionsSteps_append, foundBy_cons, foundBy_append, found_set, hfound conditions]
  · rw [setSteps_of_ne_nil conditions (by simp [hne])] at hcut ⊢
    rw [setSteps_of_ne_nil conditions (by simp [hne']), hlacks, hin]
    split
    · rfl
    · rename_i hl
      rw [if_neg hl] at hcut
      simp only [selectionsSteps_append, foundBy_cons, foundBy_append, found_set, Set.mem_union, not_or] at hcut
      simp only [selectionsSteps_append, List.findSome?_cons, List.findSome?_append, Step.typenameKey?,
        hnaming conditions hcut.2.2.1]

variable {condition : Option String} {directives : List GraphQL.Directive} {inner inner' : List Selection} {f : Field}
  {definition : OutputField}

/-- Sets find the same if they differ below a field and the sets there find the same. -/
theorem FindsSame.field (hd : schema.fieldOf? (some frame.type) f.name = some definition)
    (h : FindsSame schema
      (namingKey schema inner ((frame.inSet (before ++ .field f inner :: after)).below schema f.key definition))
      ((frame.inSet (before ++ .field f inner :: after)).below schema f.key definition).objects
      ((frame.inSet (before ++ .field f inner :: after)).below schema f.key definition) inner inner') :
    FindsSame schema key objects frame (before ++ .field f inner :: after) (before ++ .field f inner' :: after) := by
  show FindsSame schema key objects frame (before ++ ([.field f inner] ++ after))
    (before ++ ([.field f inner'] ++ after))
  refine findsSame_of_run (List.cons_ne_nil _ _) (List.cons_ne_nil _ _) ?_ ?_ (fun conditions => ?_)
    fun conditions _ => ?_
  · simp [typenameKey?, List.findSome?_append, List.findSome?_cons]
  · simp [inlineFragments, List.filter_append]
  · have htype : (frame.inSet (before ++ .field f inner :: after)).type = frame.type := type_withTypenameKey ..
    have hbelow := h.found_walkSet_eq (some f.key)
    have hempty : inner'.isEmpty = inner.isEmpty := by
      rw [Bool.eq_iff_iff, List.isEmpty_iff, List.isEmpty_iff, h.nil_iff]
    simp only [List.singleton_append, selectionsSteps_singleton, selectionSteps, foundBy_cons, foundBy_nil, Step.found,
      htype, hd, walkBelow, hbelow, hempty]
  · simp only [selectionsSteps_singleton, selectionSteps, List.findSome?_cons, Step.typenameKey?]

/-- Sets find the same if they differ in a fragment and the sets there find the same. -/
theorem FindsSame.inline
    (h : (∀ name ∈ condition, (schema.type? name).isSome = true) → FindsSame schema key objects
      ((frame.inSet (before ++ .inline condition directives inner :: after)).enter schema condition) inner inner') :
    FindsSame schema key objects frame (before ++ .inline condition directives inner :: after)
      (before ++ .inline condition directives inner' :: after) := by
  show FindsSame schema key objects frame (before ++ ([.inline condition directives inner] ++ after))
    (before ++ ([.inline condition directives inner'] ++ after))
  refine findsSame_of_run (List.cons_ne_nil _ _) (List.cons_ne_nil _ _) ?_ ?_ (fun conditions => ?_)
    fun conditions hcut => ?_
  · simp [typenameKey?, List.findSome?_append]
  · simp [inlineFragments, List.filter_append]
  · rw [selectionsSteps_singleton, selectionsSteps_singleton, selectionSteps, selectionSteps]
    cases hc : condition.filter fun name => (schema.type? name).isNone with
    | some name => rfl
    | none =>
      refine (h fun name hname => ?_).found _
      rw [Option.filter_eq_none_iff] at hc
      simpa [Option.isSome_iff_ne_none] using hc name hname
  · rw [selectionsSteps_singleton, selectionSteps] at hcut ⊢
    rw [selectionsSteps_singleton, selectionSteps]
    cases hc : condition.filter fun name => (schema.type? name).isNone with
    | some name => rfl
    | none =>
      simp only [hc] at hcut
      refine (h fun name hname => ?_).naming _ hcut
      rw [Option.filter_eq_none_iff] at hc
      simpa [Option.isSome_iff_ne_none] using hc name hname

end

end

/-! ## Sets replaced at any depth -/

/-- **Is a selection set another one with sets inside it replaced by a rule?** A walk enters the set in a frame, for a
scope with a key for type names; the rule may look at both. -/
inductive ReplacedIn (schema : Schema) (rule : Option String → Frame → List Selection → List Selection → Prop) :
    Option String → Frame → List Selection → List Selection → Prop where
  | refl {key : Option String} {frame : Frame} (selections : List Selection) :
      ReplacedIn schema rule key frame selections selections
  | set {key : Option String} {frame : Frame} {selections selections' : List Selection}
      (h : rule key frame selections selections') : ReplacedIn schema rule key frame selections selections'
  | field {key : Option String} {frame : Frame} {before after inner inner' : List Selection} {f : Field}
      {definition : OutputField} (known : schema.fieldOf? (some frame.type) f.name = some definition)
      (below : ReplacedIn schema rule
        (namingKey schema inner ((frame.inSet (before ++ .field f inner :: after)).below schema f.key definition))
        ((frame.inSet (before ++ .field f inner :: after)).below schema f.key definition) inner inner') :
      ReplacedIn schema rule key frame (before ++ .field f inner :: after) (before ++ .field f inner' :: after)
  | inline {key : Option String} {frame : Frame} {before after inner inner' : List Selection}
      {condition : Option String} {directives : List GraphQL.Directive}
      (below : ReplacedIn schema rule key
        ((frame.inSet (before ++ .inline condition directives inner :: after)).enter schema condition) inner inner') :
      ReplacedIn schema rule key frame (before ++ .inline condition directives inner :: after)
        (before ++ .inline condition directives inner' :: after)
  | trans {key : Option String} {frame : Frame} {selections between selections' : List Selection}
      (first : ReplacedIn schema rule key frame selections between)
      (second : ReplacedIn schema rule key frame between selections') :
      ReplacedIn schema rule key frame selections selections'

/-- **What holds of the frames that a walk comes to**: their types are known, and objects can have no other ones. -/
structure Frame.IsKnown (schema : Schema) (frame : Frame) : Prop where
  known : (schema.type? frame.type).isSome = true
  possible : ∀ name ∈ frame.possible, name ∈ schema.possibleTypes frame.type

/-- **Does a rule relate sets that find the same?** Outside type conditions, the objects of the scope are those of the
frame. -/
def KeepsFindings (schema : Schema) (rule : Option String → Frame → List Selection → List Selection → Prop) : Prop :=
  ∀ key frame selections selections', rule key frame selections selections' → frame.IsKnown schema →
    ∀ objects : List Located, (frame.condition = none → ∀ v ∈ objects, v ∈ frame.values) →
      FindsSame schema key objects frame selections selections'

theorem condition_withTypenameKey (frame : Frame) (key : Option String) :
    (frame.withTypenameKey key).condition = frame.condition := by
  cases key <;> rfl

/-- Entering a selection set changes nothing but the key for type names. -/
theorem Frame.inSet_eq (frame : Frame) (selections : List Selection) : frame.inSet selections =
    { frame with typenameKey := (typenameKey? selections).or frame.typenameKey } := by
  unfold Frame.inSet
  cases typenameKey? selections <;> rfl

section

variable {schema : Schema} {rule : Option String → Frame → List Selection → List Selection → Prop}
  {key : Option String} {frame : Frame} {selections selections' : List Selection}

theorem type?_of_fieldOf? (hw : schema.IsWellFormed) {parent : Option String} {name : String} {definition : OutputField}
    (hd : schema.fieldOf? parent name = some definition) : (schema.type? definition.type.base).isSome = true := by
  obtain ⟨details, hdetails, -⟩ := GraphQL.Schema.typeIs_iff.1 (hw.fieldOf? hd).1
  obtain ⟨type, htype, -⟩ := Option.map_eq_some_iff.1 hdetails
  rw [htype]
  rfl

theorem Frame.isKnown_forField {values : List Located} {type : String} {key : Option String}
    (hknown : (schema.type? type).isSome = true) : (Frame.forField schema values type key).IsKnown schema :=
  ⟨hknown, fun _ h => h⟩

theorem Frame.IsKnown.inSet (h : frame.IsKnown schema) : (frame.inSet selections).IsKnown schema := by
  unfold Frame.inSet
  cases typenameKey? selections with
  | none => exact h
  | some key => exact ⟨h.known, h.possible⟩

theorem Frame.IsKnown.enter (h : frame.IsKnown schema) {condition : Option String}
    (hcondition : ∀ name ∈ condition, (schema.type? name).isSome = true) :
    (frame.enter schema condition).IsKnown schema := by
  cases condition with
  | none => exact h
  | some name =>
    refine ⟨hcondition name rfl, fun type htype => ?_⟩
    simp only [Frame.enter, narrow, NameSet.mem_inter] at htype
    exact htype.2

/-- **Sets find the same if sets inside them are replaced by such that do.** -/
theorem ReplacedIn.findsSame (hw : schema.IsWellFormed) (hrule : KeepsFindings schema rule)
    (h : ReplacedIn schema rule key frame selections selections') (hknown : frame.IsKnown schema)
    {objects : List Located} (hobjects : frame.condition = none → ∀ v ∈ objects, v ∈ frame.values) :
    FindsSame schema key objects frame selections selections' := by
  induction h generalizing objects with
  | refl selections => exact .refl selections
  | set h => exact hrule _ _ _ _ h hknown objects hobjects
  | field known _ ih =>
    refine .field known (ih (Frame.isKnown_forField (type?_of_fieldOf? hw known)) fun _ v hv => ?_)
    exact Frame.mem_values_of_mem_objects hv
  | @inline key frame before after inner inner' condition directives _ ih =>
    refine .inline fun hcondition => ih (hknown.inSet.enter hcondition) fun hnone => ?_
    cases condition with
    | none =>
      rw [Frame.enter] at hnone ⊢
      rw [Frame.inSet, condition_withTypenameKey] at hnone
      rw [Frame.values_inSet]
      exact hobjects hnone
    | some name => cases hnone
  | trans _ _ ih ih' => exact (ih hknown hobjects).trans (ih' hknown hobjects)

end

/-! ## Checks -/

/-- **Do checks come to one verdict?** Both are aborted or neither is, both find something wrong or neither does, and if
they are not aborted they find the same wrong. Checks that fail do so for the same reason. -/
def IsOneVerdict : Except CheckError CheckResult → Except CheckError CheckResult → Prop
  | .ok result, .ok result' => result.aborted = result'.aborted ∧ (result.errors = [] ↔ result'.errors = []) ∧
      (result.aborted = false → ∀ message, message ∈ result.errors ↔ message ∈ result'.errors)
  | .error cause, .error cause' => cause = cause'
  | _, _ => False

section

variable {schema : Schema} {document document' : Document} {fixture : Json} {root : String}
  {operation operation' : Operation}

/-- Walks of operations that find the same come to one verdict. -/
theorem isOneVerdict_ofWalk (hfound : (walkOperation schema root operation fixture).found =
      (walkOperation schema root operation' fixture).found) :
    IsOneVerdict (.ok (.ofWalk (walkOperation schema root operation fixture)))
      (.ok (.ofWalk (walkOperation schema root operation' fixture))) := by
  obtain ⟨haborted, herrors⟩ := verdict_of_found_eq hfound fun tree ht u hu v hv hp => by
    have hb : Builds schema operation.selections (startFrame schema root fixture) tree := ⟨none, ht⟩
    have hin : ∀ {o : Located}, o ∈ allObjects tree → o.IsIn fixture :=
      isIn_of_mem_allObjects hb fun u hu => isIn_of_mem_rootValues hu
    exact Located.eq_of_path (hin hu) (hin hv) hp
  refine ⟨haborted, ?_, herrors⟩
  cases ha : (CheckResult.ofWalk (walkOperation schema root operation fixture)).aborted with
  | true =>
    have hne : ∀ {walk : Checking Expectation}, (CheckResult.ofWalk walk).aborted = true →
        (CheckResult.ofWalk walk).errors ≠ [] := by
      intro walk haborted herrors
      unfold CheckResult.ofWalk at haborted herrors
      cases hw : walk.outcome with
      | error cause => simp [hw] at herrors
      | ok tree => simp [hw] at haborted
    exact iff_of_false (hne ha) (hne (haborted.symm.trans ha))
  | false => simp only [List.eq_nil_iff_forall_not_mem, herrors ha]

/-- The choice of an operation does not depend on selections. -/
theorem selectOperation_of_map {inlined inlined' : Document}
    (h : (GraphQL.operations inlined).map (·.withoutSelections) =
      (GraphQL.operations inlined').map (·.withoutSelections)) (name : Option String) :
    (∃ o o', selectOperation inlined name = .ok o ∧ selectOperation inlined' name = .ok o' ∧
        o.withoutSelections = o'.withoutSelections) ∨
      ∃ cause, selectOperation inlined name = .error cause ∧ selectOperation inlined' name = .error cause := by
  have hmap : (operation? inlined name).map (·.withoutSelections) =
      (operation? inlined' name).map (·.withoutSelections) := by
    unfold operation?
    cases name with
    | some name =>
      have hfind : ∀ operations : List Operation, (operations.find? (·.name == some name)).map (·.withoutSelections) =
          (operations.map (·.withoutSelections)).find? (·.name == some name) := by
        intro operations
        rw [List.find?_map]
        rfl
      simp only [hfind, h]
    | none =>
      generalize GraphQL.operations inlined = all, GraphQL.operations inlined' = all' at h
      -- there is one operation here if and only if there is one there
      cases all with
      | nil =>
        rw [List.map_nil, eq_comm, List.map_eq_nil_iff] at h
        rw [h]
      | cons o rest =>
        obtain ⟨o', rest', rfl, ho, hrest⟩ := List.map_eq_cons_iff.1 h.symm
        cases rest with
        | nil =>
          rw [List.map_nil, List.map_eq_nil_iff] at hrest
          rw [hrest]
          exact congrArg some ho.symm
        | cons p rest =>
          obtain ⟨p', rest'', rfl, -, -⟩ := List.map_eq_cons_iff.1 hrest
          rfl
  unfold selectOperation
  cases ho : operation? inlined name with
  | some o =>
    rw [ho, Option.map_some, eq_comm, Option.map_eq_some_iff] at hmap
    obtain ⟨o', ho', hoo⟩ := hmap
    exact .inl ⟨o, o', rfl, by rw [ho'], hoo.symm⟩
  | none =>
    rw [ho, Option.map_none, eq_comm, Option.map_eq_none_iff] at hmap
    rw [hmap]
    right
    dsimp only
    split <;> exact ⟨_, rfl, rfl⟩

theorem kind_eq_of_withoutSelections (h : operation.withoutSelections = operation'.withoutSelections) :
    operation.kind = operation'.kind := by
  rw [Operation.withoutSelections, Operation.withoutSelections, Operation.mk.injEq] at h
  exact h.2.1

/-- **Checks come to one verdict if the operations that they compare with do.** -/
theorem isOneVerdict_of_operations {inlined inlined' : Document} (hi : GraphQL.inline document = .ok inlined)
    (hi' : GraphQL.inline document' = .ok inlined')
    (hoperations : (GraphQL.operations inlined).map (·.withoutSelections) =
      (GraphQL.operations inlined').map (·.withoutSelections)) (name : Option String)
    (hsame : ∀ o o' root, Compares schema document name o root → Compares schema document' name o' root →
      o.kind = o'.kind → IsOneVerdict (.ok (.ofWalk (walkOperation schema root o fixture)))
        (.ok (.ofWalk (walkOperation schema root o' fixture)))) :
    IsOneVerdict (check schema document fixture name) (check schema document' fixture name) := by
  unfold check
  rw [hi, hi']
  simp only [Except.mapError, bind, Except.bind]
  obtain ⟨o, o', ho, ho', hoo⟩ | ⟨cause, ho, ho'⟩ := selectOperation_of_map hoperations name
  · have hkind := kind_eq_of_withoutSelections hoo
    have hroot : rootType schema o' = rootType schema o := by rw [rootType, rootType, hkind]
    simp only [ho, ho', hroot]
    cases hr : rootType schema o with
    | error cause => exact rfl
    | ok root => exact hsame o o' root ⟨⟨inlined, hi, ho⟩, hr⟩ ⟨⟨inlined', hi', ho'⟩, hroot.trans hr⟩ hkind
  · simp only [ho, ho']
    exact rfl

/-- **Where sets are replaced by such that find the same, the verdict stays the same.** A document that is accepted
comes to the same verdict about a fixture as one in which sets are rewritten, if a rule that keeps what sets find leads
from the operation of the one to that of the other. -/
theorem check_replaced (hw : schema.IsWellFormed) (ha : GraphQL.Accepts schema document)
    {rule : List Selection → List Selection → Prop} {added : Option GraphQL.Fragment}
    (hout : GraphQL.IsOutlined rule added document) (h : GraphQL.DocumentRewritten rule added document document')
    {walkRule : Option String → Frame → List Selection → List Selection → Prop}
    (hrule : KeepsFindings schema walkRule) (name : Option String)
    (hs : ∀ o o' root, Compares schema document name o root → Compares schema document' name o' root →
      ReplacedIn schema walkRule (namingKey schema o.selections (startFrame schema root fixture))
        (startFrame schema root fixture) o.selections o'.selections) :
    IsOneVerdict (check schema document fixture name) (check schema document' fixture name) := by
  obtain ⟨inlined, inlined', hi, hi', hoperations⟩ := GraphQL.exists_inline_rewritten ha hout h
  refine isOneVerdict_of_operations hi hi' hoperations name fun o o' root hc hc' hkind => isOneVerdict_ofWalk ?_
  have hknown : (startFrame schema root fixture).IsKnown schema := by
    obtain ⟨details, hdetails, -⟩ := GraphQL.Schema.typeIs_iff.1 (ha.isObject_root (root?_of_rootType hc.root))
    obtain ⟨type, htype, -⟩ := Option.map_eq_some_iff.1 hdetails
    exact Frame.isKnown_forField (Option.isSome_iff_exists.2 ⟨type, htype⟩)
  have hsame : FindsSame schema _ (startFrame schema root fixture).objects _ o.selections o'.selections :=
    (hs o o' root hc hc').findsSame hw hrule hknown fun _ v hv => Frame.mem_values_of_mem_objects hv
  rw [walkOperation_eq, walkOperation_eq, found_report_andThen, found_report_andThen, hkind]
  exact congrArg _ (hsame.found_walkSet_eq none)

end

end FixtureCheck.Fixture
