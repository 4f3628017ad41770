import FixtureCheck.Proofs.Response.Conforms
import FixtureCheck.Proofs.Walk.TypeNames

/-!
# Objects and type conditions

Where objects tell their types under one key, the fragments around a field leave exactly the objects that the field is
collected for. `Frame.Narrows` says what the fragments of one set do to the objects of a frame; `Level` gathers what is
known of a set that a walk reaches, and leads to the three ways in which the program decides on types: which objects a
field is looked at on (`Level.mem_values_iff`), which keys a scope expects (`Level.expects_key_iff`), and which objects
should have a field that they lack (`Level.expects`).
-/

namespace FixtureCheck.Fixture

open GraphQL (Schema Field Selection OutputField)

variable {schema : Schema} {K : String}

/-- A frame has no key for type names but `K`. -/
def Frame.UsesKey (K : String) (frame : Frame) : Prop := ∀ key, frame.typenameKey = some key → key = K

/-- **What the fragments of a set leave of a frame.** They leave all objects that may have one of the types that are
left; and if objects are asked for their types, no others. -/
structure Frame.Narrows (K : String) (frame narrowed : Frame) : Prop where
  usesKey : narrowed.UsesKey K
  possible : ∀ name ∈ narrowed.possible, name ∈ frame.possible
  values : ∀ v ∈ narrowed.values, v ∈ frame.values
  kept : ∀ v ∈ frame.values, MayBe v (some K) narrowed.possible → v ∈ narrowed.values
  key : frame.typenameKey = some K → narrowed.typenameKey = some K
  told : frame.typenameKey = some K → ∀ v ∈ narrowed.values, MayBe v (some K) frame.possible →
    MayBe v (some K) narrowed.possible

theorem MayBe.mono {v : Located} {key : Option String} {possible possible' : NameSet} (h : MayBe v key possible)
    (hp : ∀ name ∈ possible, name ∈ possible') : MayBe v key possible' := fun name hn => hp name (h name hn)

/-- Without a key for type names, objects tell nothing. -/
theorem MayBe.of_key {v : Located} {key : Option String} {possible : NameSet} (h : MayBe v (some K) possible)
    (hkey : ∀ k, key = some k → k = K) : MayBe v key possible := by
  cases key with
  | none =>
    intro name hname
    cases hname
  | some k =>
    rw [hkey k rfl]
    exact h

namespace Frame.Narrows

variable {frame narrowed inner : Frame}

theorem refl (h : frame.UsesKey K) : frame.Narrows K frame where
  usesKey := h
  possible _ := id
  values _ := id
  kept _ hv _ := hv
  key := id
  told _ _ _ := id

theorem trans (h : frame.Narrows K narrowed) (h' : narrowed.Narrows K inner) : frame.Narrows K inner where
  usesKey := h'.usesKey
  possible name hn := h.possible name (h'.possible name hn)
  values v hv := h.values v (h'.values v hv)
  kept v hv hmay := h'.kept v (h.kept v hv (hmay.mono h'.possible)) hmay
  key hk := h'.key (h.key hk)
  told hk v hv hmay := h'.told (h.key hk) v hv (h.told hk v (h'.values v hv) hmay)

/-- A type condition leaves the objects that may have one of its types. -/
theorem enter (h : frame.UsesKey K) (condition : Option String) : frame.Narrows K (frame.enter schema condition) := by
  cases condition with
  | none => exact refl h
  | some c =>
    have hvalues : ∀ v, v ∈ (frame.enter schema (some c)).values ↔
        v ∈ frame.values ∧ MayBe v frame.typenameKey (frame.enter schema (some c)).possible := by
      intro v
      rw [← isReached_iff]
      exact List.mem_filter
    refine ⟨h, fun name hn => (NameSet.mem_inter.1 hn).1, fun v hv => ((hvalues v).1 hv).1, ?_, id, ?_⟩
    · intro v hv hmay
      exact (hvalues v).2 ⟨hv, hmay.of_key h⟩
    · intro hk v hv _
      have hmay := ((hvalues v).1 hv).2
      rw [hk] at hmay
      exact hmay

/-- A set leaves the objects of its frame, and may ask for their types. -/
theorem inSet (h : frame.UsesKey K) {selections : List Selection}
    (hkey : ∀ key, typenameKey? selections = some key → key = K) : frame.Narrows K (frame.inSet selections) := by
  unfold Frame.inSet
  cases hk : typenameKey? selections with
  | none => exact refl h
  | some key =>
    obtain rfl := hkey key hk
    refine ⟨?_, fun _ => id, fun _ => id, fun v hv _ => hv, fun _ => rfl, fun _ v _ => id⟩
    intro k hk
    exact (Option.some.inj hk).symm

end Frame.Narrows

/-- All `__typename` fields in a set have the key `K`. -/
def HasKey (K : String) (selections : List Selection) : Prop :=
  ∀ f ∈ fieldsIn selections, f.name = "__typename" → f.key = K

theorem HasKey.typenameKey? {selections : List Selection} (h : HasKey K selections) :
    ∀ key, typenameKey? selections = some key → key = K := by
  intro key hk
  obtain ⟨f, sub, hf, hname, rfl⟩ := exists_of_typenameKey? hk
  exact h f (mem_fieldsIn_of_mem hf) hname

mutual

/-- **The steps in a set are in frames that its fragments leave of its frame.** -/
theorem narrows_of_mem_setSteps {step : Step} {conditions' conditions : List String} {narrowed : Frame}
    (hp : step.place? = some (conditions', narrowed)) {selections : List Selection} {frame : Frame}
    (hf : frame.UsesKey K) (hk : HasKey K selections) (hm : step ∈ setSteps schema conditions selections frame) :
    (frame.inSet selections).Narrows K narrowed :=
  match selections with
  | [] => by simp [setSteps] at hm
  | first :: rest => by
    have hin := (Frame.Narrows.inSet hf hk.typenameKey?).usesKey
    have hfirst : ∀ f ∈ fieldsAt first, f.name = "__typename" → f.key = K :=
      fun f hf => hk f (List.mem_append_left _ hf)
    have hrest : HasKey K rest := fun f hf => hk f (List.mem_append_right _ hf)
    rw [setSteps] at hm
    split at hm
    · rw [List.mem_singleton.1 hm] at hp
      cases hp
    · simp only [List.mem_cons, List.mem_append] at hm
      rcases hm with rfl | hm | hm
      · cases hp
        exact .refl hin
      · exact narrows_of_mem_selectionSteps hp hin hfirst hm
      · exact narrows_of_mem_selectionsSteps hp hin hrest hm

theorem narrows_of_mem_selectionsSteps {step : Step} {conditions' conditions : List String} {narrowed : Frame}
    (hp : step.place? = some (conditions', narrowed)) {selections : List Selection} {frame : Frame}
    (hf : frame.UsesKey K) (hk : HasKey K selections) (hm : step ∈ selectionsSteps schema conditions selections frame) :
    frame.Narrows K narrowed :=
  match selections with
  | [] => by simp [selectionsSteps] at hm
  | first :: rest => by
    have hfirst : ∀ f ∈ fieldsAt first, f.name = "__typename" → f.key = K :=
      fun f hf => hk f (List.mem_append_left _ hf)
    have hrest : HasKey K rest := fun f hf => hk f (List.mem_append_right _ hf)
    rw [selectionsSteps, List.mem_append] at hm
    rcases hm with hm | hm
    · exact narrows_of_mem_selectionSteps hp hf hfirst hm
    · exact narrows_of_mem_selectionsSteps hp hf hrest hm

theorem narrows_of_mem_selectionSteps {step : Step} {conditions' conditions : List String} {narrowed : Frame}
    (hp : step.place? = some (conditions', narrowed)) {selection : Selection} {frame : Frame} (hf : frame.UsesKey K)
    (hk : ∀ f ∈ fieldsAt selection, f.name = "__typename" → f.key = K)
    (hm : step ∈ selectionSteps schema conditions selection frame) : frame.Narrows K narrowed :=
  match selection with
  | .field f selections => by
    rw [selectionSteps, List.mem_singleton] at hm
    subst hm
    cases hp
    exact .refl hf
  | .spread .. => by simp [selectionSteps] at hm
  | .inline condition _ selections => by
    rw [selectionSteps] at hm
    split at hm
    · rw [List.mem_singleton.1 hm] at hp
      cases hp
    · have henter : frame.Narrows K (frame.enter schema condition) := .enter hf condition
      have hset := (Frame.Narrows.inSet henter.usesKey (HasKey.typenameKey? hk)).trans
        (narrows_of_mem_setSteps hp henter.usesKey hk hm)
      exact henter.trans hset

end

/-- A set and the fragments in it have objects name their types under no key but `K`. -/
theorem HasKey.namingKey {selections : List Selection} {frame : Frame} (hk : HasKey K selections)
    (hf : frame.UsesKey K) : ∀ key, namingKey schema selections frame = some key → key = K := by
  intro key hkey
  obtain ⟨step, hs, hstep⟩ := List.exists_of_findSome?_eq_some hkey
  cases step with
  | stop cause => cases hstep
  | field conditions g f inner => cases hstep
  | set conditions g inner => exact (narrows_of_mem_setSteps rfl hf hk hs).usesKey key hstep

/-- If a set has objects name their types under no key but `K`, so do all sets that a walk reaches from it. -/
theorem Walked.hasKey {fixture : Json} {top selections : List Selection} {start frame : Frame} {tree : Expectation}
    (hw : schema.IsWellFormed) (h : Walked schema fixture top start tree) (hk : HasKey K top) (hs : start.UsesKey K)
    (hr : Reaches schema top start selections frame) : HasKey K selections ∧ frame.UsesKey K := by
  induction hr with
  | here => exact ⟨hk, hs⟩
  | @field selections frame narrowed m definition reached looks nonempty ih =>
    obtain ⟨hkeys, huses⟩ := ih
    obtain ⟨scope, -, hscope⟩ := h.of_reaches hw reached
    have hm := hscope.mem_metIn looks
    have hn := narrows_of_mem_setSteps rfl huses hkeys looks.step
    exact ⟨fun f hf => hkeys f (mem_fieldsIn_of_mem_metIn hf hm), hn.usesKey⟩

/-! ## One set -/

/-- **What is known of a set that a walk reaches**, where objects tell their types under the key `K`. -/
structure Level (schema : Schema) (K : String) (selections : List Selection) (frame : Frame) : Prop where
  keyed : K ≠ ""
  keys : HasKey K selections
  usesKey : frame.UsesKey K
  told : (typenameKey? selections).isSome ∨ ∀ m ∈ metIn [] selections, ∀ c ∈ m.conditions,
    ∀ name ∈ schema.possibleTypes frame.type, name ∈ schema.possibleTypes c
  named : ∀ v ∈ frame.values, ∀ text, v.value.field? K = some (.str text) → text ∈ schema.possibleTypes frame.type
  inhabited : ∃ name, name ∈ schema.possibleTypes frame.type
  isAt : frame.IsAt schema frame.type frame.values []
  builds : ∃ scope, Builds schema selections frame scope

/-- Does an object name its type if a set asks it to? -/
def Reports (K : String) (selections : List Selection) (v : Located) : Prop :=
  (typenameKey? selections).isSome → ∃ name, typename? v.value (some K) = some name

namespace Level

variable {selections : List Selection} {frame narrowed : Frame} {m : Met} {definition : OutputField} {v : Located}

theorem mem_metIn (h : Level schema K selections frame) (hl : LooksAt schema selections frame narrowed m definition) :
    m ∈ metIn [] selections := by
  obtain ⟨scope, hb⟩ := h.builds
  exact hl.mem_metIn hb.not_stop

theorem exists_looksAt (h : Level schema K selections frame) (hm : m ∈ metIn [] selections) :
    ∃ narrowed definition, LooksAt schema selections frame narrowed m definition := by
  obtain ⟨scope, key, he⟩ := h.builds
  exact Fixture.exists_looksAt he hm

/-- The frame of a field is what the fragments around it leave of the frame of the set. -/
theorem narrows (h : Level schema K selections frame) (hl : LooksAt schema selections frame narrowed m definition) :
    (frame.inSet selections).Narrows K narrowed := narrows_of_mem_setSteps rfl h.usesKey h.keys hl.step

theorem possible_eq (h : Level schema K selections frame) (hl : LooksAt schema selections frame narrowed m definition) :
    narrowed.possible = m.possible schema frame.type := (isAt_of_field_mem h.isAt hl.step).possible

/-- Objects tell no type that they cannot have. -/
theorem mayBe (h : Level schema K selections frame) (hv : v ∈ frame.values) :
    MayBe v (some K) (schema.possibleTypes frame.type) := by
  intro name hname
  exact h.named v hv name (typename?_eq_some_iff.1 hname).2.2

/-- Where objects are not asked for their types, type conditions leave all types. -/
theorem possible_eq_all (h : Level schema K selections frame) (hm : m ∈ metIn [] selections)
    (hnone : (typenameKey? selections).isSome = false) :
    m.possible schema frame.type = schema.possibleTypes frame.type := by
  have hall := h.told.resolve_left (by simp [hnone]) m hm
  apply NameSet.ext
  intro name
  rw [Met.possible, mem_narrowAll]
  exact ⟨And.left, fun hname => ⟨hname, fun c hc => hall c hc name hname⟩⟩

/-- **A field is collected for the objects that may have one of its types.** -/
theorem isCollected_iff (h : Level schema K selections frame) (hm : m ∈ metIn [] selections) (hv : v ∈ frame.values)
    (hr : Reports K selections v) :
    m.IsCollected schema K frame.type v.value ↔ MayBe v (some K) (m.possible schema frame.type) := by
  cases hs : (typenameKey? selections).isSome with
  | true =>
    obtain ⟨name, hname⟩ := hr hs
    have hmem := h.mayBe hv name hname
    have htype : ∀ type, HasRuntimeType schema K frame.type v.value type ↔ type = name := by
      intro type
      rw [HasRuntimeType, hname]
    simp only [Met.IsCollected, htype, exists_eq_left, MayBe, hname, Option.some.injEq, forall_eq', Met.possible,
      mem_narrowAll, hmem, true_and]
  | false =>
    have hall := h.told.resolve_left (by simp [hs]) m hm
    rw [h.possible_eq_all hm hs]
    refine iff_of_true ?_ (h.mayBe hv)
    have htype : ∃ type ∈ schema.possibleTypes frame.type, HasRuntimeType schema K frame.type v.value type := by
      unfold HasRuntimeType
      cases hname : typename? v.value (some K) with
      | none =>
        obtain ⟨type, ht⟩ := h.inhabited
        exact ⟨type, ht, ht⟩
      | some name => exact ⟨name, h.mayBe hv name hname, rfl⟩
    obtain ⟨type, ht, hrun⟩ := htype
    exact ⟨type, hrun, fun c hc => hall c hc type ht⟩

theorem possible_of_conditions_eq_nil (hc : m.conditions = []) :
    m.possible schema frame.type = schema.possibleTypes frame.type := by
  rw [Met.possible, hc]
  rfl

/-- A set that asks objects for their types has them tell under the key `K`. -/
theorem typenameKey_inSet (h : Level schema K selections frame) (hs : (typenameKey? selections).isSome = true) :
    (frame.inSet selections).typenameKey = some K := by
  obtain ⟨key, hkey⟩ := Option.isSome_iff_exists.1 hs
  obtain rfl := h.keys.typenameKey? key hkey
  rw [Frame.typenameKey_inSet, hkey]
  rfl

/-- **A field is looked at on the objects that may have one of its types.** -/
theorem mem_values_iff (h : Level schema K selections frame)
    (hl : LooksAt schema selections frame narrowed m definition) :
    v ∈ narrowed.values ↔ v ∈ frame.values ∧ MayBe v (some K) (m.possible schema frame.type) := by
  have hn := h.narrows hl
  have hat := h.isAt.inSet selections
  have hkept := hn.kept v
  have hvalues := hn.values v
  rw [Frame.values_inSet] at hkept hvalues
  rw [h.possible_eq hl] at hkept
  refine ⟨fun hv => ⟨hvalues hv, ?_⟩, fun hv => hkept hv.1 hv.2⟩
  have hmay := h.mayBe (hvalues hv)
  cases hs : (typenameKey? selections).isSome with
  | true =>
    have hpossible : (frame.inSet selections).possible = schema.possibleTypes frame.type := hat.possible
    have htold := hn.told (h.typenameKey_inSet hs) v hv
    rw [hpossible, h.possible_eq hl] at htold
    exact htold hmay
  | false =>
    rw [h.possible_eq_all (h.mem_metIn hl) hs]
    exact hmay

/-- **The objects that a field is looked at on should have it.** -/
theorem expects (h : Level schema K selections frame) (hl : LooksAt schema selections frame narrowed m definition)
    (hv : v ∈ narrowed.values) : narrowed.expects v = true := by
  have hn := h.narrows hl
  have hmay := ((h.mem_values_iff hl).1 hv).2
  unfold Frame.expects
  cases hkey : narrowed.typenameKey with
  | none =>
    cases hs : (typenameKey? selections).isSome with
    | true =>
      rw [hn.key (h.typenameKey_inSet hs)] at hkey
      cases hkey
    | false =>
      have hfield : narrowed.fieldPossible = schema.possibleTypes frame.type :=
        (isAt_of_field_mem h.isAt hl.step).fieldPossible
      have hnot : narrowed.isNarrowed = false := by
        rw [Frame.isNarrowed, h.possible_eq hl, h.possible_eq_all (h.mem_metIn hl) hs, hfield]
        simp
      simp [hnot]
  | some key =>
    obtain rfl := hn.usesKey key hkey
    have hreached : Frame.isReached (some key) narrowed.possible v = true := by
      rw [isReached_iff, h.possible_eq hl]
      exact hmay
    split
    · rename_i hnone
      cases hnone
    · rename_i hempty
      exact absurd (Option.some.inj hempty) h.keyed
    · exact hreached

/-- The key under which a scope has its objects name their types is `K`, if there is one. -/
theorem namingKey_eq_some (h : Level schema K selections frame) :
    ∀ key, namingKey schema selections frame = some key → key = K := h.keys.namingKey h.usesKey

/-- A scope has the key of its set. -/
theorem namingKey_of_isSome (h : Level schema K selections frame) (hs : (typenameKey? selections).isSome = true) :
    namingKey schema selections frame = some K := by
  have hkey := h.typenameKey_inSet hs
  unfold namingKey
  cases selections with
  | nil => cases hs
  | cons first rest =>
    have hlacks : lacksTypename schema frame (first :: rest) = false := by
      simp [lacksTypename, Option.isNone_eq_false_iff.2 hs]
    rw [setSteps, hlacks]
    simp only [Bool.false_eq_true, ↓reduceIte, List.findSome?_cons, Step.typenameKey?, hkey]

/-- **A scope expects the key of a field of the objects that may have one of the field's types.** -/
theorem expects_key_iff (h : Level schema K selections frame) (hm : m ∈ metIn [] selections) (hv : v ∈ frame.values) :
    (m.conditions = [] ∨ MayBe v (namingKey schema selections frame) (m.possible schema frame.type)) ↔
      MayBe v (some K) (m.possible schema frame.type) := by
  constructor
  · rintro (hc | hmay)
    · rw [possible_of_conditions_eq_nil hc]
      exact h.mayBe hv
    · cases hs : (typenameKey? selections).isSome with
      | true =>
        rw [h.namingKey_of_isSome hs] at hmay
        exact hmay
      | false =>
        rw [h.possible_eq_all hm hs]
        exact h.mayBe hv
  · intro hmay
    exact .inr (hmay.of_key h.namingKey_eq_some)

end Level

end FixtureCheck.Fixture
