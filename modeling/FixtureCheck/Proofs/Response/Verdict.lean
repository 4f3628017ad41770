import FixtureCheck.Proofs.Response.Narrowing
import FixtureCheck.Proofs.Walk.Within

/-!
# Exact verdicts

Where objects tell their types, a check that is not cut off finds nothing wrong if and only if the fixture answers the
operation (`check_errors_eq_nil_iff_conforms`). Both sides come down to one statement about each object that the walk
reaches, that it agrees with the sets through which it is reached (`Discriminating.agrees_iff`,
`Discriminating.conforms_of_agrees`): the walk finds out about the fields that an object lacks, and the tree of
expectations about the keys that it has.
-/

namespace FixtureCheck.Fixture

open GraphQL (Schema Document Field Selection Operation OutputField)

variable {schema : Schema} {K : String}

/-! ## Names of types -/

/-- The types that an object can have are types, with names. -/
theorem ne_empty_of_mem_possibleTypes (hw : schema.IsWellFormed) {type name : String}
    (h : name ∈ schema.possibleTypes type) : name ≠ "" := by
  have hnamed : ∀ details, schema.details? name = some details → name ≠ "" := by
    intro details hd
    obtain ⟨t, ht, rfl, -⟩ := GraphQL.Schema.exists_type_of_details? hd
    exact hw.named t ht
  have hobject : schema.isObject name = true → name ≠ "" := by
    intro ho
    obtain ⟨details, hd, -⟩ := GraphQL.Schema.typeIs_iff.1 ho
    exact hnamed details hd
  unfold GraphQL.Schema.possibleTypes at h
  split at h
  · rename_i hd
    rw [NameSet.mem_singleton] at h
    subst h
    exact hnamed _ hd
  · rename_i members hd
    rw [NameSet.mem_ofList] at h
    obtain ⟨t, ht, -, hdetails⟩ := GraphQL.Schema.exists_type_of_details? hd
    refine hobject (hw.members t ht name ?_)
    rw [hdetails]
    exact h
  · rw [NameSet.mem_ofList] at h
    obtain ⟨t, ht, rfl⟩ := List.mem_map.1 h
    exact hw.named t (List.mem_of_mem_filter ht)
  · simp at h

/-- Each type with fields stands for some object type, if abstract types do. -/
theorem exists_mem_possibleTypes {type : String} (hc : schema.isComposite type = true)
    (ha : ∀ name, schema.isAbstract name = true → ∃ object, object ∈ schema.possibleTypes name) :
    ∃ name, name ∈ schema.possibleTypes type := by
  obtain ⟨details, hd, hdetails⟩ := GraphQL.Schema.typeIs_iff.1 hc
  cases details with
  | object interfaces fields => exact ⟨type, by simp [GraphQL.Schema.possibleTypes, hd]⟩
  | interface interfaces fields => exact ha type (GraphQL.Schema.typeIs_iff.2 ⟨_, hd, rfl⟩)
  | union members => exact ha type (GraphQL.Schema.typeIs_iff.2 ⟨_, hd, rfl⟩)
  | scalar | enum values | input fields isOneOf => cases hdetails

/-! ## Sets that a walk reaches -/

/-- **A walk that is not cut off, through a fixture whose objects tell their types under the key `K`.** -/
structure Discriminating (schema : Schema) (K : String) (fixture : Json) (top : List Selection) (start : Frame)
    (tree : Expectation) : Prop where
  wellFormed : schema.IsWellFormed
  inhabited : ∀ name, schema.isAbstract name = true → ∃ object, object ∈ schema.possibleTypes name
  keyed : K ≠ ""
  discriminated : IsDiscriminated schema K start.type top
  named : NamesPossibleTypes schema K top start
  unkeyed : start.typenameKey = none
  atRoot : ∀ v ∈ start.values, v.path = []
  walked : Walked schema fixture top start tree

/-- The selection sets through which a walk reaches an object. -/
def setsOf (schema : Schema) (top : List Selection) (start : Frame) (v : Located) : Sets := fun declared selections =>
  ∃ frame, Reaches schema top start selections frame ∧ frame.type = declared ∧ v ∈ frame.values

namespace Discriminating

variable {fixture : Json} {top selections : List Selection} {start frame : Frame} {tree : Expectation}

/-- The sets that a walk reaches are below fields, and their objects tell types under no key but `K`. -/
theorem of_reaches (h : Discriminating schema K fixture top start tree)
    (hr : Reaches schema top start selections frame) :
    SetBelow schema start.type top frame.type selections ∧ HasKey K selections ∧ frame.UsesKey K := by
  refine ⟨?_, h.walked.hasKey h.wellFormed h.discriminated.keys (fun key hk => ?_) hr⟩
  · induction hr with
    | here => exact .here
    | @field selections frame narrowed m definition reached looks nonempty ih =>
      obtain ⟨scope, -, hscope⟩ := h.walked.of_reaches h.wellFormed reached
      exact .field ih (hscope.mem_metIn looks) (hscope.fieldOf? looks) nonempty
  · rw [h.unkeyed] at hk
    cases hk

theorem level (h : Discriminating schema K fixture top start tree) (hr : Reaches schema top start selections frame) :
    Level schema K selections frame := by
  obtain ⟨hbelow, hkeys, huses⟩ := h.of_reaches hr
  obtain ⟨scope, -, hscope⟩ := h.walked.of_reaches h.wellFormed hr
  exact ⟨h.keyed, hkeys, huses, h.discriminated.told _ _ hbelow, h.named _ _ hr,
    exists_mem_possibleTypes hscope.composite h.inhabited, hscope.isAt, scope, hscope.builds⟩

end Discriminating

/-! ## Objects that tell their types -/

namespace Level

variable {selections : List Selection} {frame narrowed : Frame} {m : Met} {definition : OutputField} {v : Located}

/-- Every field under no type condition is collected. -/
theorem isCollected_of_conditions_eq_nil (h : Level schema K selections frame) (hc : m.conditions = []) (o : Json) :
    m.IsCollected schema K frame.type o := by
  have htype : ∃ type, HasRuntimeType schema K frame.type o type := by
    unfold HasRuntimeType
    cases typename? o (some K) with
    | none => exact h.inhabited
    | some name => exact ⟨name, rfl⟩
  obtain ⟨type, hrun⟩ := htype
  exact ⟨type, hrun, by simp [hc]⟩

/-- An object with values of their type under the `__typename` keys of a set reports its type to the set. -/
theorem reports (h : Level schema K selections frame) (hw : schema.IsWellFormed) (hv : v ∈ frame.values)
    (hfields : ∀ f sub, .field f sub ∈ selections → f.name = "__typename" →
      ∃ value, v.value.field? f.key = some value ∧ Fits schema GraphQL.Schema.typenameField.type value) :
    Reports K selections v := by
  intro hs
  obtain ⟨key, hkey⟩ := Option.isSome_iff_exists.1 hs
  obtain rfl := h.keys.typenameKey? key hkey
  obtain ⟨f, sub, hf, hname, rfl⟩ := exists_of_typenameKey? hkey
  obtain ⟨value, hvalue, hfits⟩ := hfields f sub hf hname
  obtain ⟨text, rfl⟩ := exists_str_of_fits hw hfits
  have htext := ne_empty_of_mem_possibleTypes hw (h.named v hv text hvalue)
  exact ⟨text, typename?_eq_some_iff.2 ⟨h.keyed, htext, hvalue⟩⟩

/-- An object answers a field that is looked at on it by having it. -/
theorem answered_iff (h : Level schema K selections frame)
    (hl : LooksAt schema selections frame narrowed m definition) (hv : v ∈ narrowed.values) :
    Answered schema narrowed m definition v ↔
      ∃ value, v.value.field? m.field.key = some value ∧ Fits schema definition.type value := by
  unfold Answered
  rw [h.expects hl hv]
  constructor
  · rintro (⟨w, hw, hfits⟩ | ⟨-, hno⟩)
    · obtain ⟨value, hvalue, rfl⟩ := Option.map_eq_some_iff.1 hw
      exact ⟨value, hvalue, hfits⟩
    · cases hno
  · rintro ⟨value, hvalue, hfits⟩
    exact .inl ⟨_, Option.map_eq_some_iff.2 ⟨value, hvalue, rfl⟩, hfits⟩

end Level

/-! ## One object -/

/-- Does an object answer all fields that a walk looks at on it? -/
def AnswersAll (schema : Schema) (top : List Selection) (start : Frame) (v : Located) : Prop :=
  ∀ selections frame, Reaches schema top start selections frame → ∀ narrowed m definition,
    LooksAt schema selections frame narrowed m definition → v ∈ narrowed.values →
      Answered schema narrowed m definition v

theorem mem_keys_iff {v : Located} {k : String} : k ∈ v.keys ↔ ∃ value, v.value.field? k = some value := by
  obtain ⟨path, value⟩ := v
  cases value with
  | obj entries =>
    simp only [Located.keys, Json.field?, Json.lookup, List.mem_map, Option.map_eq_some_iff]
    constructor
    · rintro ⟨entry, he, rfl⟩
      have hsome : (entries.find? (·.1 == entry.1)).isSome := List.find?_isSome.2 ⟨entry, he, by simp⟩
      obtain ⟨found, hf⟩ := Option.isSome_iff_exists.1 hsome
      exact ⟨found.2, found, hf, rfl⟩
    · rintro ⟨value, entry, he, rfl⟩
      exact ⟨entry, List.mem_of_find?_eq_some he, by simpa using List.find?_some he⟩
  | null | bool b | int n | float x | str s | arr items => simp [Located.keys, Json.field?]

namespace Discriminating

variable {fixture : Json} {top selections : List Selection} {start frame narrowed : Frame} {tree : Expectation}
  {v : Located} {m : Met} {definition : OutputField}

/-- An object that agrees with the sets through which it is reached reports its type to them. -/
theorem reports_of_agrees (h : Discriminating schema K fixture top start tree)
    (ha : Agrees schema K (setsOf schema top start v) v.value) (hr : Reaches schema top start selections frame)
    (hv : v ∈ frame.values) : Reports K selections v := by
  have hlevel := h.level hr
  refine hlevel.reports h.wellFormed hv fun f sub hf hname => ?_
  have hm : ⟨[], f, sub⟩ ∈ metIn [] selections := mem_metIn_of_mem hf
  have hcollects : Collects schema K (setsOf schema top start v) v.value frame.type ⟨[], f, sub⟩ :=
    ⟨selections, ⟨frame, hr, rfl, hv⟩, hm, hlevel.isCollected_of_conditions_eq_nil rfl v.value⟩
  obtain ⟨definition, value, hd, hvalue, hfits⟩ := ha.fields _ _ hcollects
  rw [hname, fieldOf?_typename] at hd
  cases hd
  exact ⟨value, hvalue, hfits⟩

/-- An object that answers all fields reports its type to the sets through which it is reached. -/
theorem reports_of_answersAll (h : Discriminating schema K fixture top start tree)
    (ha : AnswersAll schema top start v) (hr : Reaches schema top start selections frame) (hv : v ∈ frame.values) :
    Reports K selections v := by
  have hlevel := h.level hr
  refine hlevel.reports h.wellFormed hv fun f sub hf hname => ?_
  have hm : ⟨[], f, sub⟩ ∈ metIn [] selections := mem_metIn_of_mem hf
  obtain ⟨narrowed, definition, hl⟩ := hlevel.exists_looksAt hm
  have hin : v ∈ narrowed.values := by
    rw [hlevel.mem_values_iff hl, Level.possible_of_conditions_eq_nil rfl]
    exact ⟨hv, hlevel.mayBe hv⟩
  have hd := hl.known
  rw [hname, fieldOf?_typename] at hd
  cases hd
  exact (hlevel.answered_iff hl hin).1 (ha _ _ hr _ _ _ hl hin)

/-- **A field is looked at on the objects that it is collected for.** -/
theorem mem_values_iff_isCollected (h : Discriminating schema K fixture top start tree)
    (hr : Reaches schema top start selections frame) (hl : LooksAt schema selections frame narrowed m definition)
    (hv : v ∈ frame.values) (hreports : Reports K selections v) :
    v ∈ narrowed.values ↔ m.IsCollected schema K frame.type v.value := by
  have hlevel := h.level hr
  rw [hlevel.mem_values_iff hl, hlevel.isCollected_iff (hlevel.mem_metIn hl) hv hreports]
  exact and_iff_right hv

/-- **An object agrees with the sets through which it is reached** if and only if it answers all fields and has only
keys that are selected for it. -/
theorem agrees_iff (h : Discriminating schema K fixture top start tree) (hv : kindOf v.value = .object) :
    Agrees schema K (setsOf schema top start v) v.value ↔
      AnswersAll schema top start v ∧ ∀ k ∈ v.keys, SelectedFor schema top start v k := by
  constructor
  · intro ha
    refine ⟨fun selections frame hr narrowed m definition hl hin => ?_, fun k hk => ?_⟩
    · have hlevel := h.level hr
      have hvin := ((hlevel.mem_values_iff hl).1 hin).1
      have hcollected := (h.mem_values_iff_isCollected hr hl hvin (h.reports_of_agrees ha hr hvin)).1 hin
      obtain ⟨definition', value, hd, hvalue, hfits⟩ :=
        ha.fields _ _ ⟨selections, ⟨frame, hr, rfl, hvin⟩, hlevel.mem_metIn hl, hcollected⟩
      obtain ⟨scope, -, hscope⟩ := h.walked.of_reaches h.wellFormed hr
      rw [hscope.fieldOf? hl] at hd
      cases hd
      exact (hlevel.answered_iff hl hin).2 ⟨value, hvalue, hfits⟩
    · obtain ⟨value, hvalue⟩ := mem_keys_iff.1 hk
      obtain ⟨declared, m, ⟨selections, ⟨frame, hr, rfl, hvin⟩, hm, hcollected⟩, hkey⟩ := ha.keys k value hvalue
      have hlevel := h.level hr
      rw [hlevel.isCollected_iff hm hvin (h.reports_of_agrees ha hr hvin)] at hcollected
      exact ⟨selections, frame, hr, hvin, m, hm, hkey, (hlevel.expects_key_iff hm hvin).2 hcollected⟩
  · rintro ⟨ha, hkeys⟩
    refine ⟨hv, fun k value hvalue => ?_, fun declared m hcollects => ?_⟩
    · obtain ⟨selections, frame, hr, hvin, m, hm, hkey, hexpects⟩ := hkeys k (mem_keys_iff.2 ⟨value, hvalue⟩)
      have hlevel := h.level hr
      rw [hlevel.expects_key_iff hm hvin, ← hlevel.isCollected_iff hm hvin (h.reports_of_answersAll ha hr hvin)]
        at hexpects
      exact ⟨frame.type, m, ⟨selections, ⟨frame, hr, rfl, hvin⟩, hm, hexpects⟩, hkey⟩
    · obtain ⟨selections, ⟨frame, hr, rfl, hvin⟩, hm, hcollected⟩ := hcollects
      have hlevel := h.level hr
      obtain ⟨narrowed, definition, hl⟩ := hlevel.exists_looksAt hm
      have hin := (h.mem_values_iff_isCollected hr hl hvin (h.reports_of_answersAll ha hr hvin)).2 hcollected
      obtain ⟨value, hvalue, hfits⟩ := (hlevel.answered_iff hl hin).1 (ha _ _ hr _ _ _ hl hin)
      obtain ⟨scope, -, hscope⟩ := h.walked.of_reaches h.wellFormed hr
      exact ⟨definition, value, hscope.fieldOf? hl, hvalue, hfits⟩

/-! ## Objects below objects -/

/-- The objects below a field are objects in the values that the objects above have under its key. -/
theorem exists_parent (h : Discriminating schema K fixture top start tree)
    (hr : Reaches schema top start selections frame) (hl : LooksAt schema selections frame narrowed m definition)
    (hne : m.selections ≠ []) {o : Located} (ho : o ∈ (narrowed.below schema m.field.key definition).values) :
    ∃ u ∈ narrowed.values, ∃ w, u.field? m.field.key = some w ∧ o ∈ objectsAt w.path w.value := by
  obtain ⟨scope, -, hscope⟩ := h.walked.of_reaches h.wellFormed hr
  obtain ⟨hcomposite, -⟩ := hscope.isComposite_of_nonempty hl hne
  obtain ⟨u, hu, ho⟩ := mem_values_below.1 ho
  exact ⟨u, hu, mem_children_checkField hcomposite (h.wellFormed.fieldOf? hl.known).2 ho⟩

theorem isIn_of_reaches (h : Discriminating schema K fixture top start tree)
    (hr : Reaches schema top start selections frame) (hv : v ∈ frame.values) : v.IsIn fixture :=
  (h.walked.values_of_reaches h.wellFormed hr hv).1

/-- The walk comes to the objects in a value under a key of an object through the sets below the fields of that key. -/
theorem setsBelow_eq (h : Discriminating schema K fixture top start tree) (hv : v.IsIn fixture)
    (ha : Agrees schema K (setsOf schema top start v) v.value) {k : String} {w o : Located} (hw : v.field? k = some w)
    (ho : o ∈ objectsAt w.path w.value) :
    setsBelow schema K (setsOf schema top start v) v.value k = setsOf schema top start o := by
  obtain ⟨-, hwpath, hwvalue⟩ := Located.isIn_field? hv hw
  obtain ⟨-, q, hq, hopath, -⟩ := mem_objectsAt ho
  rw [hwpath, List.append_assoc, List.singleton_append] at hopath
  funext type selections
  apply propext
  constructor
  · rintro ⟨declared, m, definition, hcollects, rfl, hne, hd, rfl, rfl⟩
    obtain ⟨definition', value, hd', hvalue, hfits⟩ := ha.fields declared m hcollects
    rw [hd] at hd'
    cases hd'
    rw [hwvalue] at hvalue
    cases hvalue
    obtain ⟨selections, ⟨frame, hr, rfl, hvin⟩, hm, hcollected⟩ := hcollects
    obtain ⟨narrowed, definition', hl⟩ := (h.level hr).exists_looksAt hm
    obtain ⟨scope, -, hscope⟩ := h.walked.of_reaches h.wellFormed hr
    rw [hscope.fieldOf? hl] at hd
    cases hd
    obtain ⟨hcomposite, -⟩ := hscope.isComposite_of_nonempty hl hne
    have hproper := (h.wellFormed.fieldOf? hl.known).2
    have hin := (h.mem_values_iff_isCollected hr hl hvin (h.reports_of_agrees ha hr hvin)).2 hcollected
    rw [Fits, GraphQL.Schema.isInputType_eq_false _ hcomposite, if_neg Bool.false_ne_true] at hfits
    have hchild : o ∈ (checkField schema narrowed m.field.key definition.type v).children :=
      (answers_checkField hcomposite hproper hw).complete hfits o ho
    exact ⟨_, .field hr hl hne, rfl, mem_values_below.2 ⟨v, hin, hchild⟩⟩
  · rintro ⟨frame', hr', rfl, hoin⟩
    cases hr' with
    | here =>
      rw [h.atRoot o hoin] at hopath
      simp at hopath
    | @field selections frame narrowed m definition hr hl hne =>
      obtain ⟨u, hu, w', hw', ho'⟩ := h.exists_parent hr hl hne hoin
      have hlevel := h.level hr
      have hvin := ((hlevel.mem_values_iff hl).1 hu).1
      have huin := h.isIn_of_reaches hr hvin
      obtain ⟨-, hw'path, -⟩ := Located.isIn_field? huin hw'
      obtain ⟨-, q', hq', hopath', -⟩ := mem_objectsAt ho'
      rw [hw'path, List.append_assoc, List.singleton_append, hopath] at hopath'
      obtain ⟨hpath, rfl⟩ := path_cancel hq hq' hopath'
      obtain rfl := Located.eq_of_path hv huin hpath
      have hcollected := (h.mem_values_iff_isCollected hr hl hvin (h.reports_of_agrees ha hr hvin)).1 hu
      obtain ⟨scope, -, hscope⟩ := h.walked.of_reaches h.wellFormed hr
      exact ⟨frame.type, m, definition, ⟨selections, ⟨frame, hr, rfl, hvin⟩, hlevel.mem_metIn hl, hcollected⟩, rfl, hne,
        hscope.fieldOf? hl, rfl, rfl⟩

/-- Objects that are reached answer their sets if all objects that are reached agree with theirs. -/
theorem conforms_of_agrees (h : Discriminating schema K fixture top start tree)
    (hall : ∀ selections frame, Reaches schema top start selections frame → ∀ v ∈ frame.values,
      Agrees schema K (setsOf schema top start v) v.value) {selections : List Selection} {frame : Frame} {v : Located}
    (hr : Reaches schema top start selections frame) (hv : v ∈ frame.values) :
    Conforms schema K (setsOf schema top start v) v.value := by
  have ha := hall selections frame hr v hv
  refine .intro ha fun k value inner type below hvalue hinner hbelow => ?_
  have hw : v.field? k = some ⟨v.path ++ [.key k], value⟩ := Option.map_eq_some_iff.2 ⟨value, hvalue, rfl⟩
  have hlt := sizeOf_lt_of_field? hvalue hinner
  obtain ⟨o, ho, rfl⟩ := isObjectIn_iff.1 hinner
  have heq := h.setsBelow_eq (h.isIn_of_reaches hr hv) ha hw ho
  rw [heq] at hbelow ⊢
  obtain ⟨frame', hr', -, hoin⟩ := hbelow
  exact conforms_of_agrees h hall hr' hoin
termination_by sizeOf v.value

/-- If the objects where a walk starts answer their sets, all objects that it reaches agree with theirs. -/
theorem conforms_of_reaches (h : Discriminating schema K fixture top start tree)
    (hstart : ∀ v ∈ start.values, Conforms schema K (setsOf schema top start v) v.value)
    (hr : Reaches schema top start selections frame) :
    ∀ v ∈ frame.values, Conforms schema K (setsOf schema top start v) v.value := by
  induction hr with
  | here => exact hstart
  | @field selections frame narrowed m definition hr hl hne ih =>
    intro o ho
    obtain ⟨u, hu, w, hw, hmem⟩ := h.exists_parent hr hl hne ho
    have huin := (((h.level hr).mem_values_iff hl).1 hu).1
    obtain ⟨ha, hbelow⟩ := ih u huin
    obtain ⟨-, -, hvalue⟩ := Located.isIn_field? (h.isIn_of_reaches hr huin) hw
    have heq := h.setsBelow_eq (h.isIn_of_reaches hr huin) ha hw hmem
    have hsets : setsOf schema top start o (narrowed.below schema m.field.key definition).type m.selections :=
      ⟨_, .field hr hl hne, rfl, ho⟩
    rw [← heq] at hsets ⊢
    exact hbelow _ _ _ _ _ hvalue (isObjectIn_iff.2 ⟨o, hmem, rfl⟩) hsets

end Discriminating

/-! ## Checks -/

/-- The walk of an operation comes to the fixture through the operation alone. -/
theorem setsOf_root {root : String} {top : List Selection} {fixture : Json} {tree : Expectation}
    (h : Discriminating schema K fixture top (rootFrame schema root fixture) tree) :
    setsOf schema top (rootFrame schema root fixture) ⟨[], fixture⟩ =
      fun type selections => type = root ∧ selections = top := by
  funext type selections
  apply propext
  constructor
  · rintro ⟨frame, hr, rfl, hv⟩
    cases hr with
    | here => exact ⟨rfl, rfl⟩
    | @field selections frame narrowed m definition hr hl hne =>
      obtain ⟨u, hu, w, hw, ho⟩ := h.exists_parent hr hl hne hv
      have huin := h.isIn_of_reaches hr (((h.level hr).mem_values_iff hl).1 hu).1
      obtain ⟨-, hpath, -⟩ := Located.isIn_field? huin hw
      obtain ⟨-, q, -, hroot, -⟩ := mem_objectsAt ho
      rw [hpath] at hroot
      simp at hroot
  · rintro ⟨rfl, rfl⟩
    exact ⟨_, .here, rfl, List.mem_singleton_self _⟩

/-- A check that is not cut off finds nothing wrong if and only if each object that the walk reaches answers all fields
that are looked at on it, and all of its keys are selected for it. -/
theorem errors_eq_nil_iff_answersAll {root : String} {operation : Operation} {fixture : Json} {tree : Expectation}
    (hw : schema.IsWellFormed) (hf : kindOf fixture = .object)
    (ht : (walkOperation schema root operation fixture).outcome = .ok tree)
    (h : Walked schema fixture operation.selections (rootFrame schema root fixture) tree) :
    (CheckResult.ofWalk (walkOperation schema root operation fixture)).errors = [] ↔
      ∀ selections frame, Reaches schema operation.selections (rootFrame schema root fixture) selections frame →
        ∀ v ∈ frame.values, AnswersAll schema operation.selections (rootFrame schema root fixture) v ∧
          ∀ k ∈ v.keys, SelectedFor schema operation.selections (rootFrame schema root fixture) v k := by
  rw [errors_ofWalk_eq_nil]
  simp only [ht, Except.ok.injEq, exists_eq_left']
  rw [errors_walkOperation_eq_nil hw hf ht, h.extraFields_eq_nil hw]
  constructor
  · rintro ⟨hanswers, hkeys⟩ selections frame hr v hv
    refine ⟨fun selections frame hr narrowed m definition hl hin => ?_, hkeys selections frame hr v hv⟩
    exact hanswers selections frame hr narrowed m definition hl v hin
  · intro hall
    constructor
    · intro selections frame hr narrowed m definition hl v hin
      have hv := values_of_mem_setSteps rfl hl.step v hin
      exact (hall selections frame hr v hv).1 selections frame hr narrowed m definition hl hin
    · intro selections frame hr v hv
      exact (hall selections frame hr v hv).2

/-- A check that is not cut off finds nothing wrong if and only if all objects that the walk reaches agree with the sets
through which it reaches them. -/
theorem errors_eq_nil_iff_agrees {root : String} {operation : Operation} {fixture : Json} {tree : Expectation}
    (hf : kindOf fixture = .object) (ht : (walkOperation schema root operation fixture).outcome = .ok tree)
    (h : Discriminating schema K fixture operation.selections (rootFrame schema root fixture) tree) :
    (CheckResult.ofWalk (walkOperation schema root operation fixture)).errors = [] ↔
      ∀ selections frame, Reaches schema operation.selections (rootFrame schema root fixture) selections frame →
        ∀ v ∈ frame.values, Agrees schema K
          (setsOf schema operation.selections (rootFrame schema root fixture) v) v.value := by
  rw [errors_eq_nil_iff_answersAll h.wellFormed hf ht h.walked]
  refine forall₃_congr fun selections frame hr => forall₂_congr fun v hv => ?_
  exact (h.agrees_iff (h.walked.values_of_reaches h.wellFormed hr hv).2).symm

/-- **The verdict on a query whose objects tell their types is exact**: a check that is not cut off finds nothing wrong
if and only if the fixture answers the operation. -/
theorem check_errors_eq_nil_iff_conforms {document : Document} {name : Option String} {operation : Operation}
    {root : String} {fixture : Json} {result : CheckResult} (hw : schema.IsWellFormed)
    (hi : ∀ type, schema.isAbstract type = true → ∃ object, object ∈ schema.possibleTypes type)
    (hv : GraphQL.validate schema document = .ok []) (hc : Compares schema document name operation root)
    (hf : kindOf fixture = .object) (hK : K ≠ "") (hd : IsDiscriminated schema K root operation.selections)
    (hn : NamesPossibleTypes schema K operation.selections (rootFrame schema root fixture))
    (h : check schema document fixture name = .ok result) (ha : result.aborted = false) :
    result.errors = [] ↔
      Conforms schema K (fun type selections => type = root ∧ selections = operation.selections) fixture := by
  obtain ⟨operation', root', hc', rfl⟩ := check_eq_ok_iff.1 h
  obtain ⟨rfl, rfl⟩ := hc'.unique hc
  cases ht : (walkOperation schema root' operation' fixture).outcome with
  | error cause =>
    rw [(ofWalk_error ht).1] at ha
    cases ha
  | ok tree =>
    have hwalked := hc.walked (GraphQL.accepts_of_validate hv) hw hf ht
    have hroot : ∀ v ∈ (rootFrame schema root' fixture).values, v = ⟨[], fixture⟩ := fun v hv => List.mem_singleton.1 hv
    have hall : Discriminating schema K fixture operation'.selections (rootFrame schema root' fixture) tree :=
      ⟨hw, hi, hK, hd, hn, rfl, fun v hv => by rw [hroot v hv], hwalked⟩
    -- both sides say of each object that the walk reaches that it agrees with its sets
    rw [errors_eq_nil_iff_agrees hf ht hall, ← setsOf_root hall]
    constructor
    · intro hagrees
      exact hall.conforms_of_agrees hagrees .here (List.mem_singleton_self _)
    · intro hconforms selections frame hr v hv
      refine (hall.conforms_of_reaches (fun u hu => ?_) hr v hv).agrees
      rw [hroot u hu]
      exact hconforms

/-! ## A cat and a dog -/

/-- A cat and a dog that tell what they are. -/
def kinds : Json := .obj [("pets", .arr [
  .obj [("__typename", .str "Cat"), ("name", .str "Tom")],
  .obj [("__typename", .str "Dog")]])]

theorem check_kinds : check petSchema [.operation kindOperation] kinds none = .ok ⟨[], false⟩ := by cbv

/-- The frame of the cat and the dog. -/
def kindFrame : Frame :=
  (rootFrame petSchema "Query" kinds).below petSchema "pets" ⟨"pets", .list (.named "Pet"), []⟩

/-- Each abstract type in the schema of pets has members. -/
theorem petSchema_inhabited (type : String) (h : petSchema.isAbstract type = true) :
    ∃ object, object ∈ petSchema.possibleTypes type := by
  have hall : ∀ t ∈ petSchema.types, t.details.isAbstract = true → (petSchema.possibleTypes t.name).names ≠ [] := by
    decide +kernel
  obtain ⟨details, hd, ha⟩ := GraphQL.Schema.typeIs_iff.1 h
  obtain ⟨t, ht, rfl, rfl⟩ := GraphQL.Schema.exists_type_of_details? hd
  exact List.exists_mem_of_ne_nil _ (hall t ht ha)

/-- The sets in the query for the kinds of pets. -/
theorem setBelow_kinds {type : String} {selections : List Selection}
    (h : SetBelow petSchema "Query" kindOperation.selections type selections) :
    type = "Query" ∧ selections = kindOperation.selections ∨ type = "Pet" ∧ selections = petKinds := by
  induction h with
  | here => exact .inl ⟨rfl, rfl⟩
  | @field type selections m definition outer met known nonempty ih =>
    rcases ih with ⟨rfl, rfl⟩ | ⟨rfl, rfl⟩
    · have hfields : metIn [] kindOperation.selections = [⟨[], ⟨none, "pets", [], []⟩, petKinds⟩] := by cbv
      rw [hfields, List.mem_singleton] at met
      subst met
      have hpets : petSchema.fieldOf? (some "Query") "pets" = some ⟨"pets", .list (.named "Pet"), []⟩ := by cbv
      have hsame := hpets.symm.trans known
      cases hsame
      exact .inr ⟨rfl, rfl⟩
    · have hleaves : ∀ m ∈ metIn [] petKinds, m.selections = [] := by
        simp [petKinds, metIn, metAt, plain]
      exact absurd (hleaves m met) nonempty

theorem isDiscriminated_kinds : IsDiscriminated petSchema "__typename" "Query" kindOperation.selections where
  keys := by
    simp [fieldsIn, fieldsAt, kindOperation, petKinds, plain, GraphQL.Field.key]
  told type selections h := by
    rcases setBelow_kinds h with ⟨rfl, rfl⟩ | ⟨rfl, rfl⟩
    · refine .inr fun m hm => ?_
      have hfields : metIn [] kindOperation.selections = [⟨[], ⟨none, "pets", [], []⟩, petKinds⟩] := by cbv
      rw [hfields, List.mem_singleton] at hm
      subst hm
      simp
    · exact .inl rfl

/-- The walk for the kinds of pets comes to the query and to the pets. -/
theorem reaches_kinds {selections : List Selection} {frame : Frame}
    (h : Reaches petSchema kindOperation.selections (rootFrame petSchema "Query" kinds) selections frame) :
    selections = kindOperation.selections ∧ frame = rootFrame petSchema "Query" kinds ∨
      selections = petKinds ∧ frame = kindFrame := by
  induction h with
  | here => exact .inl ⟨rfl, rfl⟩
  | @field selections frame narrowed m definition reached looks nonempty ih =>
    obtain ⟨step, known⟩ := looks
    obtain ⟨conditions, f, inner⟩ := m
    rcases ih with ⟨rfl, rfl⟩ | ⟨rfl, rfl⟩
    · have hsteps : setSteps petSchema [] kindOperation.selections (rootFrame petSchema "Query" kinds) =
          [.set [] (rootFrame petSchema "Query" kinds) kindOperation.selections,
            .field [] (rootFrame petSchema "Query" kinds) ⟨none, "pets", [], []⟩ petKinds] := by cbv
      simp only [hsteps, List.mem_cons, List.not_mem_nil, or_false, reduceCtorEq, false_or, Step.field.injEq] at step
      obtain ⟨rfl, rfl, rfl, rfl⟩ := step
      have hpets : petSchema.fieldOf? (some "Query") "pets" = some ⟨"pets", .list (.named "Pet"), []⟩ := by cbv
      have hsame := hpets.symm.trans known
      cases hsame
      exact .inr ⟨rfl, rfl⟩
    · have hfields : (setSteps petSchema [] petKinds kindFrame).filterMap Step.met? =
          [⟨[], ⟨none, "__typename", [], []⟩, []⟩, ⟨["Cat"], ⟨none, "name", [], []⟩, []⟩] := by cbv
      have hmet : ⟨conditions, f, inner⟩ ∈ (setSteps petSchema [] petKinds kindFrame).filterMap Step.met? :=
        List.mem_filterMap.2 ⟨_, step, rfl⟩
      simp only [hfields, List.mem_cons, List.not_mem_nil, or_false, Met.mk.injEq] at hmet
      rcases hmet with ⟨-, -, rfl⟩ | ⟨-, -, rfl⟩ <;> exact absurd rfl nonempty

theorem namesPossibleTypes_kinds :
    NamesPossibleTypes petSchema "__typename" kindOperation.selections (rootFrame petSchema "Query" kinds) := by
  intro selections frame hr v hv text ht
  rcases reaches_kinds hr with ⟨-, rfl⟩ | ⟨-, rfl⟩
  · rw [List.mem_singleton.1 hv] at ht
    have hnone : kinds.field? "__typename" = none := by cbv
    rw [hnone] at ht
    cases ht
  · have hvalues : kindFrame.values = [
        ⟨[.key "pets", .index 0], .obj [("__typename", .str "Cat"), ("name", .str "Tom")]⟩,
        ⟨[.key "pets", .index 1], .obj [("__typename", .str "Dog")]⟩] := by cbv
    rw [hvalues] at hv
    have hcat : "Cat" ∈ petSchema.possibleTypes "Pet" := by decide +kernel
    have hdog : "Dog" ∈ petSchema.possibleTypes "Pet" := by decide +kernel
    simp only [List.mem_cons, List.not_mem_nil, or_false] at hv
    rcases hv with rfl | rfl
    · cases ht
      exact hcat
    · cases ht
      exact hdog

/-- The cat and the dog answer the query for the kinds of pets. -/
theorem kinds_conforms : petSchema.IsWellFormed ∧
    (∀ type, petSchema.isAbstract type = true → ∃ object, object ∈ petSchema.possibleTypes type) ∧
    GraphQL.validate petSchema [.operation kindOperation] = .ok [] ∧
    Compares petSchema [.operation kindOperation] none kindOperation "Query" ∧ kindOf kinds = .object ∧
    IsDiscriminated petSchema "__typename" "Query" kindOperation.selections ∧
    NamesPossibleTypes petSchema "__typename" kindOperation.selections (rootFrame petSchema "Query" kinds) ∧
    check petSchema [.operation kindOperation] kinds none = .ok ⟨[], false⟩ ∧
    Conforms petSchema "__typename" (fun type selections => type = "Query" ∧ selections = kindOperation.selections)
      kinds :=
  ⟨petSchema_isWellFormed, petSchema_inhabited, validate_kindOperation, compares_kindOperation, rfl,
    isDiscriminated_kinds, namesPossibleTypes_kinds, check_kinds,
    (check_errors_eq_nil_iff_conforms petSchema_isWellFormed petSchema_inhabited validate_kindOperation
      compares_kindOperation rfl (by decide) isDiscriminated_kinds namesPossibleTypes_kinds check_kinds rfl).1 rfl⟩

end FixtureCheck.Fixture
