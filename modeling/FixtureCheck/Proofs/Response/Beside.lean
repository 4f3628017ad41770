import FixtureCheck.Proofs.Response.Verdict
import FixtureCheck.Proofs.Walk.Shadowed

/-!
# Walks with and without names of types

Where a query asks for names of types in more sets, and a fixture tells them, what is asked for in a set is in force
below it too, so objects there may be read otherwise than before. `AddsNamesRightly` says when this is of no matter:
each object is read as before, or told to be of the type whose fields it has (`IsSettled`). Then the walks come to the
same sets with the same objects (`exists_partner`, `exists_accompanies`), find the same fields answered (`answered'`)
and have the same keys selected for objects (`selected'`).
-/

namespace FixtureCheck.Fixture

open GraphQL (Schema Document Field Selection Operation OutputField)
open Expectation

/-! ## Sets beside sets -/

/-- **The sets that a walk reaches, and those that stand in for them where names are asked for**, each with the key for
type names from the sets around it. -/
inductive Accompanies (schema : Schema) (top : List Selection) (start : Frame) (top' : List Selection) :
    List Selection → Frame → List Selection → Option String → Prop where
  | here : Accompanies schema top start top' top start top' start.typenameKey
  | field {selections selections' below : List Selection} {frame narrowed : Frame} {key key' : Option String} {m : Met}
      {definition : OutputField} (reached : Accompanies schema top start top' selections frame selections' key)
      (comes : ComesTo schema [] selections (frame.inSet selections) selections' ((typenameKey? selections').or key) m
        narrowed below key')
      (known : schema.fieldOf? (some narrowed.type) m.field.name = some definition) (nonempty : m.selections ≠ []) :
      Accompanies schema top start top' m.selections (narrowed.below schema m.field.key definition) below key'

/-- Does a walk come to an object at a place with a set in which a name is asked for? -/
def IsAsked (schema : Schema) (top : List Selection) (start : Frame) (top' : List Selection) (path : Json.Path) :
    Prop :=
  ∃ selections frame selections' key v, Accompanies schema top start top' selections frame selections' key ∧
    selections.length < selections'.length ∧ v ∈ frame.values ∧ v.path = path

/-- **Is an object read in a set as before**, or rightly otherwise? The key for type names is the same and the object is
read alike under it; or it names the same type or none under the old key and the new one, and is not empty; or it names
a type now, and no other one before, and has of the keys of the set just those that are selected for this type. A key
with selections below is to be selected for the type wherever it is selected. -/
inductive IsSettled (schema : Schema) (selections : List Selection) (frame : Frame) (key key' : Option String)
    (v v' : Located) : Prop where
  | kept (same : key' = key) (alike : v.ReadsAlike v' key)
  | full (same : typename? v'.value key' = typename? v.value key) (nonempty : v.isEmptyObject = false)
  | told {name : String} (now : typename? v'.value key' = some name)
      (before : ∀ other, typename? v.value key = some other → other = name)
      (present : ∀ m ∈ metIn [] selections, name ∈ m.possible schema frame.type → m.field.key ∈ v.keys)
      (selected : ∀ m ∈ metIn [] selections, m.field.key ∈ v.keys → name ∈ m.possible schema frame.type ∨
        m.selections = [] ∧
          ∃ m' ∈ metIn [] selections, m'.field.key = m.field.key ∧ name ∈ m'.possible schema frame.type)

/-- **Does a query ask for more names of types, and a fixture tell them**, at just the places that are asked? No field
met there has the key `__typename`. Keys are names, so they are not empty. -/
structure AddsNames (schema : Schema) (top top' : List Selection) (start : Frame) (fixture fixture' : Json) : Prop where
  asks : Asks true top top'
  named : Json.Named (IsAsked schema top start top') [] fixture fixture'
  unused : ∀ selections frame selections' key, Accompanies schema top start top' selections frame selections' key →
    ∀ v ∈ frame.values, IsAsked schema top start top' v.path →
      ∀ m ∈ metIn [] selections, m.field.key ≠ "__typename" ∧ m.field.key ≠ ""

/-- **Are names of types added so that each object is read as before**, or rightly otherwise, in each set with which the
walk comes to it? -/
structure AddsNamesRightly (schema : Schema) (top top' : List Selection) (start : Frame) (fixture fixture' : Json) :
    Prop extends AddsNames schema top top' start fixture fixture' where
  settled : ∀ selections frame selections' key, Accompanies schema top start top' selections frame selections' key →
    ∀ v ∈ frame.values, IsSettled schema selections frame (frame.inSet selections).typenameKey
      ((typenameKey? selections').or key) v (counterpart fixture' v)

section

variable {schema : Schema} {top top' selections selections' : List Selection} {start frame : Frame}
  {key key' : Option String} {m : Met} {v v' : Located}

theorem Accompanies.asks (h : Accompanies schema top start top' selections frame selections' key)
    (hasks : Asks true top top') : Asks true selections selections' := by
  cases h with
  | here => exact hasks
  | field _ comes _ _ => exact comes.asks.1

/-- There is a key for type names in force where there was one. -/
theorem Asks.isSome_or (h : Asks true selections selections')
    (hkey : frame.typenameKey.isSome = true → key.isSome = true)
    (hsome : (frame.inSet selections).typenameKey.isSome = true) :
    ((typenameKey? selections').or key).isSome = true := by
  rw [Frame.typenameKey_inSet, Option.isSome_or, Bool.or_eq_true] at hsome
  rw [Option.isSome_or, Bool.or_eq_true]
  exact hsome.imp h.isSome_typenameKey? hkey

theorem Accompanies.isSome_key (h : Accompanies schema top start top' selections frame selections' key)
    (hasks : Asks true top top') : frame.typenameKey.isSome = true → key.isSome = true := by
  induction h with
  | here => exact id
  | field reached comes _ _ ih => exact comes.isSome_key ((reached.asks hasks).isSome_or ih)

namespace IsSettled

/-- An object that is settled names no type that it does not name now. -/
theorem names (h : IsSettled schema selections frame key key' v v') :
    typename? v.value key = none ∨ typename? v'.value key' = typename? v.value key := by
  cases h with
  | kept same alike =>
    rw [same]
    exact .inr alike.typename
  | full same _ => exact .inr same
  | told now before _ _ =>
    cases hv : typename? v.value key with
    | none => exact .inl rfl
    | some other =>
      rw [now, before other hv]
      exact .inr rfl

/-- The keys of an object that is settled are still selected for it. -/
theorem exists_selected (h : IsSettled schema selections frame key key' v v') (hm : m ∈ metIn [] selections)
    (hk : m.field.key ∈ v.keys) : typename? v'.value key' = typename? v.value key ∨
      ∃ m' ∈ metIn [] selections, m'.field.key = m.field.key ∧ MayBe v' key' (m'.possible schema frame.type) ∧
        (m.selections ≠ [] → m' = m) := by
  cases h with
  | kept same alike =>
    rw [same]
    exact .inl alike.typename
  | full same _ => exact .inl same
  | @told name now _ _ selected =>
    have hmay : ∀ {m' : Met}, name ∈ m'.possible schema frame.type → MayBe v' key' (m'.possible schema frame.type) := by
      intro m' hmem other hother
      rw [now] at hother
      rw [← Option.some.inj hother]
      exact hmem
    right
    rcases selected m hm hk with hmem | ⟨hnil, m', hm', hsame, hmem⟩
    · exact ⟨m, hm, rfl, hmay hmem, fun _ => rfl⟩
    · exact ⟨m', hm', hsame, hmay hmem, fun hne => absurd hnil hne⟩

/-- An object that is settled stays among those with the types of a field with selections below that it has. -/
theorem stays (h : IsSettled schema selections frame key key' v v') (hm : m ∈ metIn [] selections)
    (hne : m.selections ≠ []) (hk : m.field.key ∈ v.keys) : typename? v'.value key' = typename? v.value key ∨
      MayBe v' key' (m.possible schema frame.type) := by
  rcases h.exists_selected hm hk with hsame | ⟨m', -, -, hmay, hself⟩
  · exact .inl hsame
  · rw [hself hne] at hmay
    exact .inr hmay

/-- A field that is not expected of an object is not expected of it when it is settled. -/
theorem expects_eq_false {fixture' : Json} {base : List Located} {narrowed narrowed' : Frame}
    (h : IsSettled schema selections frame key key' v (counterpart fixture' v)) (hm : m ∈ metIn [] selections)
    (hk : m.field.key ∉ v.keys) (hpossible : narrowed.possible = m.possible schema frame.type) (hv : v ∈ base)
    (hshadows : narrowed.Shadows fixture' base key key' narrowed') (hno : narrowed.expects v = false) :
    narrowed'.expects (counterpart fixture' v) = false := by
  rcases hshadows.keys with ⟨hkey, hkey'⟩ | ⟨hkey, halike⟩
  · cases h with
    | kept same alike =>
      subst hkey
      exact (alike.expects_eq (hkey'.trans same) hshadows.possible hshadows.fieldPossible).2 hno
    | full same nonempty =>
      rw [Frame.expects_eq_false_iff, hkey] at hno
      rw [Frame.expects_eq_false_iff, hkey', hshadows.possible, MayBe.congr same]
      refine .inr (hno.resolve_left fun hempty => ?_)
      rw [nonempty] at hempty
      exact Bool.false_ne_true hempty.2.2
    | told now _ present _ =>
      rw [Frame.expects_eq_false_iff, hkey', hshadows.possible, hpossible]
      right
      intro hmay
      exact hk (present m hm (hmay _ now))
  · exact ((halike v hv).expects_eq hkey hshadows.possible hshadows.fieldPossible).2 hno

end IsSettled

end

/-! ## Frames with the same objects -/

/-- **Is a frame a partner of another one**: has it the same types and the counterparts of its objects? -/
structure Frame.Partners (fixture' : Json) (frame frame' : Frame) : Prop where
  type : frame'.type = frame.type
  possible : frame'.possible = frame.possible
  fieldPossible : frame'.fieldPossible = frame.fieldPossible
  mem_values : ∀ v', v' ∈ frame'.values ↔ ∃ v ∈ frame.values, v' = counterpart fixture' v

theorem Frame.Partners.shadows {fixture' : Json} {frame frame' : Frame} (h : frame.Partners fixture' frame')
    (selections selections' : List Selection) :
    (frame.inSet selections).Shadows fixture' frame.values (frame.inSet selections).typenameKey
      (frame'.inSet selections').typenameKey (frame'.inSet selections') := by
  rw [Frame.inSet_eq, Frame.inSet_eq]
  refine ⟨h.type, h.possible, h.fieldPossible, .inl ⟨rfl, rfl⟩, fun v hv => hv, ?_, ?_⟩
  · intro v hv _
    exact (h.mem_values _).2 ⟨v, hv, rfl⟩
  · intro v' hv'
    exact (h.mem_values v').1 hv'

/-- Texts fit the type of type names. -/
theorem fits_typename {schema : Schema} (hw : schema.IsWellFormed) (text : String) :
    Fits schema GraphQL.Schema.typenameField.type (.str text) := by
  have hinput : schema.isInputType GraphQL.Schema.typenameField.type = true :=
    GraphQL.Schema.typeIs_iff.2 ⟨.scalar, hw.text, rfl⟩
  rw [Fits, if_pos hinput]
  simp [GraphQL.misfits, GraphQL.Schema.typenameField, GraphQL.misfitsAt, GraphQL.isNullValue, GraphQL.leafCause?,
    GraphQL.scalarCause?, hw.text]

/-- **What holds of a walk that finds nothing wrong, and of one beside it** through selections with names asked for. -/
structure WalksBeside (schema : Schema) (fixture fixture' : Json) (top top' : List Selection) (start start' : Frame)
    (tree tree' : Expectation) : Prop where
  wellFormed : schema.IsWellFormed
  walked : Walked schema fixture top start tree
  walked' : Walked schema fixture' top' start' tree'
  answered : ∀ selections frame, Reaches schema top start selections frame → ∀ narrowed m definition,
    LooksAt schema selections frame narrowed m definition → ∀ v ∈ narrowed.values,
      Answered schema narrowed m definition v
  adds : AddsNamesRightly schema top top' start fixture fixture'
  partners : start.Partners fixture' start'
  key : start'.typenameKey = start.typenameKey

/-- A walk that is not stopped at a set is not stopped in it. -/
theorem not_stop_inSet {schema : Schema} {selections : List Selection} {frame : Frame}
    (hstop : ∀ cause, Step.stop cause ∉ setSteps schema [] selections frame) (cause : Abort) :
    Step.stop cause ∉ selectionsSteps schema [] selections (frame.inSet selections) :=
  fun hs => hstop cause ((mem_setSteps_iff (lacksTypename_of_not_stop hstop)).2 (.inr hs))

/-- A step to a field in a set is one in the selections of the set. -/
theorem field_mem_inSet {schema : Schema} {selections inner : List Selection} {frame narrowed : Frame}
    {conditions : List String} {f : Field}
    (hstop : ∀ cause, Step.stop cause ∉ setSteps schema [] selections frame) :
    Step.field conditions narrowed f inner ∈ setSteps schema [] selections frame ↔
      Step.field conditions narrowed f inner ∈ selectionsSteps schema [] selections (frame.inSet selections) := by
  rw [mem_setSteps_iff (lacksTypename_of_not_stop hstop)]
  simp

namespace WalksBeside

variable {schema : Schema} {fixture fixture' : Json} {top top' selections selections' below : List Selection}
  {start start' frame frame' narrowed narrowed' : Frame} {tree tree' : Expectation} {key key' : Option String} {m : Met}
  {definition : OutputField} {v : Located} (h : WalksBeside schema fixture fixture' top top' start start' tree tree')

include h

theorem not_stop (hr : Reaches schema top start selections frame) (cause : Abort) :
    Step.stop cause ∉ setSteps schema [] selections frame := by
  obtain ⟨scope, -, hscope⟩ := h.walked.of_reaches h.wellFormed hr
  exact hscope.builds.not_stop cause

theorem not_stop' (hr : Reaches schema top' start' selections' frame') (cause : Abort) :
    Step.stop cause ∉ setSteps schema [] selections' frame' := by
  obtain ⟨scope, -, hscope⟩ := h.walked'.of_reaches h.wellFormed hr
  exact hscope.builds.not_stop cause

theorem isIn (hr : Reaches schema top start selections frame) (hv : v ∈ frame.values) : v.IsIn fixture :=
  (h.walked.values_of_reaches h.wellFormed hr hv).1

theorem looksAt (hr : Reaches schema top start selections frame)
    (hc : ComesTo schema [] selections (frame.inSet selections) selections' key m narrowed below key')
    (hd : schema.fieldOf? (some narrowed.type) m.field.name = some definition) :
    LooksAt schema selections frame narrowed m definition := by
  have hstop := h.not_stop hr
  exact ⟨(field_mem_inSet hstop).2 (hc.step_mem (not_stop_inSet hstop)), hd⟩

/-- The walk reaches the sets that others stand in for. -/
theorem reaches (hacc : Accompanies schema top start top' selections frame selections' key) :
    Reaches schema top start selections frame := by
  induction hacc with
  | here => exact .here
  | field reached comes known nonempty ih => exact .field ih (h.looksAt ih comes known) nonempty

/-- For each set that the walk reaches stands one in. -/
theorem exists_beside (hr : Reaches schema top start selections frame) :
    ∃ selections' key, Accompanies schema top start top' selections frame selections' key := by
  induction hr with
  | here => exact ⟨top', start.typenameKey, .here⟩
  | @field selections frame narrowed m definition hr hl hne ih =>
    obtain ⟨selections', key, hacc⟩ := ih
    have hstop := h.not_stop hr
    obtain ⟨below, key', hc⟩ := (hacc.asks h.adds.asks).exists_comesTo (not_stop_inSet hstop)
      ((field_mem_inSet hstop).1 hl.step) ((typenameKey? selections').or key)
    exact ⟨below, key', .field hacc hc hl.known hne⟩

/-! ### Objects -/

/-- Objects are read alike under the keys of fields. -/
theorem readsFieldsAlike (hacc : Accompanies schema top start top' selections frame selections' key) :
    ReadsFieldsAlike fixture' frame.values (metIn [] selections) := by
  intro m hm v hv
  have hnamed := (named_counterpart h.adds.named (h.isIn (h.reaches hacc) hv)).2.2
  by_cases hasked : IsAsked schema top start top' v.path
  · obtain ⟨hkey, hempty⟩ := h.adds.unused _ _ _ _ hacc v hv hasked m hm
    refine ⟨hnamed.typename?_eq fun hno => hkey hno.2, ?_⟩
    rintro (hnone | hno)
    · cases hnone
    · exact absurd (Option.some.inj hno) hempty
  · exact ⟨hnamed.typename?_eq fun hno => hasked hno.1, fun _ => hnamed.isEmptyObject_eq hasked⟩

theorem keepsNames (hacc : Accompanies schema top start top' selections frame selections' key) :
    KeepsNames fixture' frame.values (frame.inSet selections).typenameKey ((typenameKey? selections').or key) := by
  intro v hv
  exact (h.adds.settled _ _ _ _ hacc v hv).names

/-- A field that is looked at on an object that has its key fits. -/
theorem fits (hr : Reaches schema top start selections frame)
    (hl : LooksAt schema selections frame narrowed m definition) {u w : Located} (hu : u ∈ narrowed.values)
    (hw : u.field? m.field.key = some w) : Fits schema definition.type w.value := by
  rcases h.answered selections frame hr narrowed m definition hl u hu with ⟨w', hw', hfits⟩ | ⟨hnone, -⟩
  · rw [hw] at hw'
    cases hw'
    exact hfits
  · rw [hw] at hnone
    cases hnone

/-- A field is met for the types of the frame in which it is looked at. -/
theorem possible_eq (hr : Reaches schema top start selections frame)
    (hl : LooksAt schema selections frame narrowed m definition) :
    m ∈ metIn [] selections ∧ narrowed.possible = m.possible schema frame.type ∧
      ∀ u ∈ narrowed.values, u ∈ frame.values := by
  obtain ⟨scope, -, hscope⟩ := h.walked.of_reaches h.wellFormed hr
  exact ⟨hscope.mem_metIn hl, (hscope.isAt_narrowed hl).possible, (hscope.isAt_narrowed hl).values.subset⟩

/-- **Below a field, partners follow on shadows.** -/
theorem partners_below (hacc : Accompanies schema top start top' selections frame selections' key)
    (hl : LooksAt schema selections frame narrowed m definition) (hne : m.selections ≠ [])
    (hshadows : narrowed.Shadows fixture' frame.values (frame.inSet selections).typenameKey
      ((typenameKey? selections').or key) narrowed') :
    (narrowed.below schema m.field.key definition).Partners fixture'
      (narrowed'.below schema m.field.key definition) := by
  have hr := h.reaches hacc
  obtain ⟨scope, -, hscope⟩ := h.walked.of_reaches h.wellFormed hr
  obtain ⟨hm, hpossible, hvalues⟩ := h.possible_eq hr hl
  obtain ⟨hcomposite, -⟩ := hscope.isComposite_of_nonempty hl hne
  obtain ⟨houtput, hproper⟩ := h.wellFormed.fieldOf? hl.known
  have hshape : ∀ {value : Json}, Fits schema definition.type value → HasShape definition.type value := by
    intro value hfits
    rwa [Fits, GraphQL.Schema.isInputType_eq_false _ hcomposite, if_neg Bool.false_ne_true] at hfits
  refine ⟨rfl, rfl, rfl, fun o' => ?_⟩
  rw [mem_values_below]
  constructor
  · rintro ⟨u', hu', ho'⟩
    obtain ⟨u, hu, rfl⟩ := hshadows.back u' hu'
    obtain ⟨w', hw', ho'⟩ := mem_children_checkField hcomposite hproper ho'
    have hin := h.isIn hr (hvalues u hu)
    have hkey : ¬ (IsAsked schema top start top' u.path ∧ m.field.key = "__typename") := fun hno =>
      (h.adds.unused _ _ _ _ hacc u (hvalues u hu) hno.1 m hm).1 hno.2
    obtain ⟨w, hw, rfl⟩ := exists_of_field?_counterpart h.adds.named hin hkey hw'
    obtain ⟨o, ho, rfl⟩ := (mem_objectsAt_counterpart h.adds.named (Located.isIn_field? hin hw).1).1 ho'
    refine ⟨o, mem_values_below.2 ⟨u, hu, ?_⟩, rfl⟩
    exact (answers_checkField hcomposite hproper hw).complete (hshape (h.fits hr hl hu hw)) o ho
  · rintro ⟨o, ho, rfl⟩
    obtain ⟨u, hu, ho⟩ := mem_values_below.1 ho
    obtain ⟨w, hw, ho⟩ := mem_children_checkField hcomposite hproper ho
    have hin := h.isIn hr (hvalues u hu)
    have hwin := (Located.isIn_field? hin hw).1
    have hkey : m.field.key ∈ u.keys := mem_keys_iff.2 ⟨w.value, (Located.isIn_field? hin hw).2.2⟩
    have hstays := (h.adds.settled _ _ _ _ hacc u (hvalues u hu)).stays hm hne hkey
    rw [← hpossible] at hstays
    refine ⟨counterpart fixture' u, hshadows.into u hu hstays, ?_⟩
    have hfits := fits_of_named houtput (named_counterpart h.adds.named hwin).2.2 (h.fits hr hl hu hw)
    refine (answers_checkField hcomposite hproper (field?_counterpart h.adds.named hin hw)).complete (hshape hfits) _ ?_
    exact (mem_objectsAt_counterpart h.adds.named hwin).2 ⟨o, ho, rfl⟩

/-! ### Sets -/

/-- **The other walk reaches the sets that stand in**, with the same objects. -/
theorem exists_partner (hacc : Accompanies schema top start top' selections frame selections' key) :
    ∃ frame', Reaches schema top' start' selections' frame' ∧ frame.Partners fixture' frame' ∧
      frame'.typenameKey = key := by
  induction hacc with
  | here => exact ⟨start', .here, h.partners, h.key⟩
  | @field selections selections' below frame narrowed key key' m definition hacc hc hd hne ih =>
    obtain ⟨frame', hr', hpartners, hkey⟩ := ih
    have hr := h.reaches hacc
    have hstop' := h.not_stop' hr'
    have hin : (frame'.inSet selections').typenameKey = (typenameKey? selections').or key := by
      rw [Frame.typenameKey_inSet, hkey]
    have hframe := hpartners.shadows selections selections'
    rw [hin] at hframe
    obtain ⟨narrowed', hs, hshadows, hkey'⟩ := hc.exists_shadow hframe hin (h.keepsNames hacc)
      (h.readsFieldsAlike hacc) (not_stop_inSet hstop')
    have hl' : LooksAt schema selections' frame' narrowed' ⟨m.conditions, m.field, below⟩ definition :=
      ⟨(field_mem_inSet hstop').2 hs, by rw [hshadows.type]; exact hd⟩
    refine ⟨narrowed'.below schema m.field.key definition, .field hr' hl' (mt hc.asks.2.2 hne), ?_, hkey'⟩
    exact h.partners_below hacc (h.looksAt hr hc hd) hne hshadows

/-- Where the other walk looks at a field, a name is asked for, or the walk looks at the field too. -/
theorem exists_looksAt (hacc : Accompanies schema top start top' selections frame selections' frame'.typenameKey)
    (hr' : Reaches schema top' start' selections' frame') (hpartners : frame.Partners fixture' frame')
    (hl' : LooksAt schema selections' frame' narrowed' m definition) :
    (selections.length < selections'.length ∧ narrowed' = frame'.inSet selections' ∧
        .field m.field m.selections = askName) ∨
      ∃ inner narrowed, LooksAt schema selections frame narrowed ⟨m.conditions, m.field, inner⟩ definition ∧
        ComesTo schema [] selections (frame.inSet selections) selections'
          ((typenameKey? selections').or frame'.typenameKey) ⟨m.conditions, m.field, inner⟩ narrowed m.selections
          narrowed'.typenameKey ∧
        narrowed.Shadows fixture' frame.values (frame.inSet selections).typenameKey
          ((typenameKey? selections').or frame'.typenameKey) narrowed' := by
  have hr := h.reaches hacc
  have hstop' := h.not_stop' hr'
  have hframe := hpartners.shadows selections selections'
  have hnames := h.keepsNames hacc
  rw [← Frame.typenameKey_inSet] at hnames ⊢
  rcases (hacc.asks h.adds.asks).comesTo_of_step hframe hnames (h.readsFieldsAlike hacc) (not_stop_inSet hstop')
    ((field_mem_inSet hstop').1 hl'.step) with ⟨-, hlt, hnarrowed, hask⟩ | ⟨inner, narrowed, hc, hshadows⟩
  · exact .inl ⟨hlt, hnarrowed, hask⟩
  · have hd : schema.fieldOf? (some narrowed.type) m.field.name = some definition := by
      rw [← hshadows.type]
      exact hl'.known
    exact .inr ⟨inner, narrowed, h.looksAt hr hc hd, hc, hshadows⟩

/-- **Each set that the other walk reaches stands in for one**, with the same objects. -/
theorem exists_accompanies (hr' : Reaches schema top' start' selections' frame') :
    ∃ selections frame, Accompanies schema top start top' selections frame selections' frame'.typenameKey ∧
      frame.Partners fixture' frame' := by
  induction hr' with
  | here =>
    refine ⟨top, start, ?_, h.partners⟩
    rw [h.key]
    exact .here
  | @field selections' frame' narrowed' m definition hr' hl' hne ih =>
    obtain ⟨selections, frame, hacc, hpartners⟩ := ih
    rcases h.exists_looksAt hacc hr' hpartners hl' with ⟨-, -, hask⟩ | ⟨inner, narrowed, hl, hc, hshadows⟩
    · rw [askName, Selection.field.injEq] at hask
      exact absurd hask.2 hne
    · have hinner : inner ≠ [] := mt hc.asks.2.1 hne
      exact ⟨inner, _, .field hacc hc hl.known hinner, h.partners_below hacc hl hinner hshadows⟩

/-! ### Verdicts -/

/-- **The other walk finds the fields answered.** -/
theorem answered' (hr' : Reaches schema top' start' selections' frame')
    (hl' : LooksAt schema selections' frame' narrowed' m definition) {v' : Located} (hv' : v' ∈ narrowed'.values) :
    Answered schema narrowed' m definition v' := by
  obtain ⟨selections, frame, hacc, hpartners⟩ := h.exists_accompanies hr'
  have hr := h.reaches hacc
  rcases h.exists_looksAt hacc hr' hpartners hl' with ⟨hlt, rfl, hask⟩ | ⟨inner, narrowed, hl, hc, hshadows⟩
  · rw [Frame.values_inSet, hpartners.mem_values] at hv'
    obtain ⟨v, hv, rfl⟩ := hv'
    obtain ⟨hin, hobject⟩ := h.walked.values_of_reaches h.wellFormed hr hv
    have hasked : IsAsked schema top start top' v.path := ⟨selections, frame, selections', _, v, hacc, hlt, hv, rfl⟩
    obtain ⟨-, text, htext⟩ := (named_counterpart h.adds.named hin).2.2.field?_typename hasked hobject
    rw [askName, Selection.field.injEq] at hask
    have hd := hl'.known
    rw [hask.1, fieldOf?_typename] at hd
    cases hd
    refine .inl ⟨⟨v.path ++ [.key "__typename"], .str text⟩, ?_, fits_typename h.wellFormed text⟩
    rw [hask.1]
    exact Option.map_eq_some_iff.2 ⟨_, htext, rfl⟩
  · obtain ⟨v, hv, rfl⟩ := hshadows.back v' hv'
    obtain ⟨hm, hpossible, hvalues⟩ := h.possible_eq hr hl
    have hin := h.isIn hr (hvalues v hv)
    rcases h.answered selections frame hr narrowed _ definition hl v hv with ⟨w, hw, hfits⟩ | ⟨hnone, hno⟩
    · have hwin := (Located.isIn_field? hin hw).1
      refine .inl ⟨counterpart fixture' w, field?_counterpart h.adds.named hin hw, ?_⟩
      exact fits_of_named (h.wellFormed.fieldOf? hl.known).1 (named_counterpart h.adds.named hwin).2.2 hfits
    · right
      constructor
      · cases hw' : (counterpart fixture' v).field? m.field.key with
        | none => rfl
        | some w' =>
          have hkey : ¬ (IsAsked schema top start top' v.path ∧ m.field.key = "__typename") := fun hasked =>
            (h.adds.unused _ _ _ _ hacc v (hvalues v hv) hasked.1 _ hm).1 hasked.2
          obtain ⟨w, hw, -⟩ := exists_of_field?_counterpart h.adds.named hin hkey hw'
          rw [hnone] at hw
          cases hw
      · have hk : m.field.key ∉ v.keys := by
          rw [mem_keys_iff]
          rintro ⟨value, hvalue⟩
          rw [Located.field?, hvalue] at hnone
          cases hnone
        have hsettled := h.adds.settled _ _ _ _ hacc v (hvalues v hv)
        exact hsettled.expects_eq_false hm hk hpossible (hvalues v hv) hshadows hno

/-- A key that an object has is still selected for types that it may have. -/
theorem exists_mayBe' (hacc : Accompanies schema top start top' selections frame selections' frame'.typenameKey)
    (hr' : Reaches schema top' start' selections' frame') (hm : m ∈ metIn [] selections) (hv : v ∈ frame.values)
    (hk : m.field.key ∈ v.keys) (hmay : MayBe v (namingKey schema selections frame) (m.possible schema frame.type)) :
    ∃ m' ∈ metIn [] selections, m'.field.key = m.field.key ∧
      MayBe (counterpart fixture' v) (namingKey schema selections' frame') (m'.possible schema frame.type) := by
  have hr := h.reaches hacc
  have hasks := hacc.asks h.adds.asks
  have hne : selections ≠ [] := by
    rintro rfl
    simp [metIn] at hm
  have hne' : selections' ≠ [] := by
    rintro rfl
    exact hne (List.eq_nil_of_length_eq_zero (Nat.le_zero.1 hasks.length_le))
  rw [namingKey_eq_or hne (h.not_stop hr)] at hmay
  rw [namingKey_eq_or hne' (h.not_stop' hr')]
  have hsettled := h.adds.settled _ _ _ _ hacc v hv
  rw [← Frame.typenameKey_inSet] at hsettled
  have hsome := hasks.isSome_or (hacc.isSome_key h.adds.asks)
  rw [← Frame.typenameKey_inSet] at hsome
  cases hkey' : (frame'.inSet selections').typenameKey with
  | none =>
    have hkey : (frame.inSet selections).typenameKey = none := by
      rw [hkey'] at hsome
      simpa using hsome
    -- no key is in force, so both have the one that fragments bring
    obtain ⟨heq, hown⟩ := hasks.findSome?_eq hkey hkey' (not_stop_inSet (h.not_stop hr))
      (not_stop_inSet (h.not_stop' hr'))
    rw [hkey, Option.none_or] at hmay
    rw [Option.none_or, heq]
    refine ⟨m, hm, rfl, ?_⟩
    cases hrows : (selectionsSteps schema [] selections (frame.inSet selections)).findSome? Step.typenameKey? with
    | none =>
      intro name hname
      cases hname
    | some own =>
      obtain ⟨m', hm', rfl⟩ := hown own hrows
      rw [hrows] at hmay
      exact (MayBe.congr (h.readsFieldsAlike hacc m' hm' v hv).typename).2 hmay
  | some own' =>
    rw [hkey'] at hsettled
    rw [Option.some_or]
    rcases hsettled.exists_selected hm hk with hsame | ⟨m', hm', hsame, hmay', -⟩
    · refine ⟨m, hm, rfl, ?_⟩
      cases hkey : (frame.inSet selections).typenameKey with
      | none =>
        intro name hname
        rw [hsame, hkey] at hname
        cases hname
      | some own =>
        rw [hkey, Option.some_or] at hmay
        rw [hkey] at hsame
        exact (MayBe.congr hsame).2 hmay
    · exact ⟨m', hm', hsame, hmay'⟩

/-- **The other walk leaves no key over** if the walk leaves none. -/
theorem selected' (hselected : ∀ selections frame, Reaches schema top start selections frame → ∀ v ∈ frame.values,
      ∀ k ∈ v.keys, SelectedFor schema top start v k)
    (hr' : Reaches schema top' start' selections' frame') {v' : Located} (hv' : v' ∈ frame'.values) {k : String}
    (hk : k ∈ v'.keys) : SelectedFor schema top' start' v' k := by
  obtain ⟨selections, frame, hacc, hpartners⟩ := h.exists_accompanies hr'
  obtain ⟨v, hv, rfl⟩ := (hpartners.mem_values v').1 hv'
  have hr := h.reaches hacc
  have hin := h.isIn hr hv
  obtain ⟨value', hvalue'⟩ := mem_keys_iff.1 hk
  by_cases hname : IsAsked schema top start top' v.path ∧ k = "__typename"
  · obtain ⟨⟨asking, there, asking', key, u, hasking, hlt, hu, hpath⟩, rfl⟩ := hname
    obtain rfl : u = v := Located.eq_of_path (h.isIn (h.reaches hasking) hu) hin hpath
    obtain ⟨there', hthere', hthere, -⟩ := h.exists_partner hasking
    have hmem : askName ∈ asking' := (hasking.asks h.adds.asks).askName_mem hlt
    exact ⟨asking', there', hthere', (hthere.mem_values _).2 ⟨u, hu, rfl⟩, _, mem_metIn_of_mem hmem, rfl, .inl rfl⟩
  · have hw' : (counterpart fixture' v).field? k = some ⟨v.path ++ [.key k], value'⟩ :=
      Option.map_eq_some_iff.2 ⟨value', hvalue', rfl⟩
    obtain ⟨w, hw, -⟩ := exists_of_field?_counterpart h.adds.named hin hname hw'
    have hkv : k ∈ v.keys := mem_keys_iff.2 ⟨w.value, (Located.isIn_field? hin hw).2.2⟩
    obtain ⟨selecting, there, hthere, hvthere, m, hm, rfl, hcond⟩ := hselected selections frame hr v hv k hkv
    obtain ⟨selecting', key, hbeside⟩ := h.exists_beside hthere
    obtain ⟨there', hthere', hpart, rfl⟩ := h.exists_partner hbeside
    have hstill : ∃ m' ∈ metIn [] selecting, m'.field.key = m.field.key ∧ (m'.conditions = [] ∨
        MayBe (counterpart fixture' v) (namingKey schema selecting' there') (m'.possible schema there.type)) := by
      rcases hcond with hnil | hmay
      · exact ⟨m, hm, rfl, .inl hnil⟩
      · obtain ⟨m', hm', hsame, hmay'⟩ := h.exists_mayBe' hbeside hthere' hm hvthere hkv hmay
        exact ⟨m', hm', hsame, .inr hmay'⟩
    obtain ⟨m', hm', hsame, hcond'⟩ := hstill
    have hstop := h.not_stop hthere
    obtain ⟨narrowed, hstep⟩ := (mem_metIn_iff hstop).1 hm'
    obtain ⟨below, key', hc⟩ := (hbeside.asks h.adds.asks).exists_comesTo (not_stop_inSet hstop)
      ((field_mem_inSet hstop).1 hstep) none
    refine ⟨selecting', there', hthere', (hpart.mem_values _).2 ⟨v, hvthere, rfl⟩, _, hc.mem_metIn', hsame, ?_⟩
    rw [hpart.type]
    exact hcond'

end WalksBeside

end FixtureCheck.Fixture
