import FixtureCheck.Proofs.Response.Verdict

/-!
# Objects that tell no types

A query without `__typename` has no objects tell their types, so all fragments apply to all objects
(`Untold.mem_values_iff`). An object may leave a field out only if it is empty and type conditions leave some types of
the object out (`Untold.expects_eq_false_iff`). That makes the verdict exact: nothing is wrong if and only if each
object that the walk reaches is either complete, with what all fragments together ask for, or empty and asked only for
what some types lack (`untold_errors_eq_nil_iff`).
-/

namespace FixtureCheck.Fixture

open GraphQL (Schema Document Field Selection Operation OutputField)

variable {schema : Schema}

/-- Do sets ask for a field in the selection set of a field of type `declared`, under whatever type conditions? -/
def AsksFor (sets : Sets) (declared : String) (m : Met) : Prop :=
  ∃ selections, sets declared selections ∧ m ∈ metIn [] selections

/-- Has an object a field that is met in the selection set of a field of type `declared`, with a value of its type? -/
def HasField (schema : Schema) (declared : String) (m : Met) (o : Json) : Prop :=
  ∃ definition value, schema.fieldOf? (some (m.type declared)) m.field.name = some definition ∧
    o.field? m.field.key = some value ∧ Fits schema definition.type value

/-- **Has an object exactly the keys that sets ask for, under whatever type conditions**, with values of the types of
the fields? -/
structure IsComplete (schema : Schema) (sets : Sets) (o : Json) : Prop where
  keys : ∀ k value, o.field? k = some value → ∃ declared m, AsksFor sets declared m ∧ m.field.key = k
  fields : ∀ declared m, AsksFor sets declared m → HasField schema declared m o

/-- **Is an object empty, and asked only for fields under type conditions** that not all types of the object meet? -/
structure IsLeftOut (schema : Schema) (sets : Sets) (o : Json) : Prop where
  empty : o = .obj []
  narrowed : ∀ declared m, AsksFor sets declared m → m.possible schema declared ≠ schema.possibleTypes declared

/-! ## One set -/

/-- A set that a walk reaches where objects tell no types. -/
structure Untold (schema : Schema) (selections : List Selection) (frame : Frame) : Prop where
  keys : HasKey "" selections
  usesKey : frame.UsesKey ""
  isAt : frame.IsAt schema frame.type frame.values []

/-- Under the empty key an object tells nothing. -/
theorem mayBe_empty (v : Located) (possible : NameSet) : MayBe v (some "") possible := by
  intro name hname
  cases hname

namespace Untold

variable {selections : List Selection} {frame narrowed : Frame} {m : Met} {definition : OutputField} {v : Located}

/-- **A field is looked at on all objects.** -/
theorem mem_values_iff (h : Untold schema selections frame)
    (hl : LooksAt schema selections frame narrowed m definition) : v ∈ narrowed.values ↔ v ∈ frame.values := by
  have hn := narrows_of_mem_setSteps rfl h.usesKey h.keys hl.step
  have hkept := hn.kept v
  rw [Frame.values_inSet] at hkept
  exact ⟨values_of_mem_setSteps rfl hl.step v, fun hv => hkept hv (mayBe_empty v _)⟩

/-- **Only an empty object may lack a field**, if type conditions leave some types out. -/
theorem expects_eq_false_iff (h : Untold schema selections frame)
    (hl : LooksAt schema selections frame narrowed m definition) :
    narrowed.expects v = false ↔
      m.possible schema frame.type ≠ schema.possibleTypes frame.type ∧ v.isEmptyObject = true := by
  have hat := isAt_of_field_mem h.isAt hl.step
  have hpossible : narrowed.possible = m.possible schema frame.type := hat.possible
  have hexpects : narrowed.expects v = !(narrowed.isNarrowed && v.isEmptyObject) := by
    unfold Frame.expects
    cases hkey : narrowed.typenameKey with
    | none => rfl
    | some key =>
      have hempty := (narrows_of_mem_setSteps rfl h.usesKey h.keys hl.step).usesKey key hkey
      subst hempty
      rfl
  rw [hexpects, Frame.isNarrowed, hpossible, hat.fieldPossible]
  simp

end Untold

/-! ## One object -/

section

variable {fixture : Json} {top selections : List Selection} {start frame narrowed : Frame} {tree : Expectation}
  {v : Located} {m : Met} {definition : OutputField}

/-- A walk that is not cut off, through a fixture whose objects are not asked for their types. -/
structure Unasked (schema : Schema) (fixture : Json) (top : List Selection) (start : Frame) (tree : Expectation) :
    Prop where
  wellFormed : schema.IsWellFormed
  unnamed : ∀ f ∈ fieldsIn top, f.name ≠ "__typename"
  unkeyed : start.typenameKey = none
  walked : Walked schema fixture top start tree

namespace Unasked

theorem untold (h : Unasked schema fixture top start tree) (hr : Reaches schema top start selections frame) :
    Untold schema selections frame := by
  have hkeys : HasKey "" top := fun f hf hname => absurd hname (h.unnamed f hf)
  have huses : start.UsesKey "" := by
    intro key hkey
    rw [h.unkeyed] at hkey
    cases hkey
  obtain ⟨scope, -, hscope⟩ := h.walked.of_reaches h.wellFormed hr
  obtain ⟨hkeys, huses⟩ := h.walked.hasKey h.wellFormed hkeys huses hr
  exact ⟨hkeys, huses, hscope.isAt⟩

/-- The sets through which a walk reaches an object ask for the fields that the walk looks at on the object. -/
theorem asks_iff (h : Unasked schema fixture top start tree) {declared : String} :
    AsksFor (setsOf schema top start v) declared m ↔ ∃ selections frame narrowed definition,
      Reaches schema top start selections frame ∧ frame.type = declared ∧
        LooksAt schema selections frame narrowed m definition ∧ v ∈ narrowed.values := by
  constructor
  · rintro ⟨selections, ⟨frame, hr, rfl, hv⟩, hm⟩
    obtain ⟨scope, -, hscope⟩ := h.walked.of_reaches h.wellFormed hr
    obtain ⟨key, hwalk⟩ := hscope.builds
    obtain ⟨narrowed, definition, hl⟩ := exists_looksAt hwalk hm
    exact ⟨selections, frame, narrowed, definition, hr, rfl, hl, ((h.untold hr).mem_values_iff hl).2 hv⟩
  · rintro ⟨selections, frame, narrowed, definition, hr, rfl, hl, hv⟩
    obtain ⟨scope, -, hscope⟩ := h.walked.of_reaches h.wellFormed hr
    exact ⟨selections, ⟨frame, hr, rfl, values_of_mem_setSteps rfl hl.step v hv⟩, hscope.mem_metIn hl⟩

/-- All fields that are asked for select their keys for an object. -/
theorem selectedFor_iff (h : Unasked schema fixture top start tree) {k : String} :
    SelectedFor schema top start v k ↔
      ∃ declared m, AsksFor (setsOf schema top start v) declared m ∧ m.field.key = k := by
  constructor
  · rintro ⟨selections, frame, hr, hv, m, hm, hk, -⟩
    exact ⟨frame.type, m, ⟨selections, ⟨frame, hr, rfl, hv⟩, hm⟩, hk⟩
  · rintro ⟨declared, m, ⟨selections, ⟨frame, hr, rfl, hv⟩, hm⟩, hk⟩
    have hset := h.untold hr
    exact ⟨selections, frame, hr, hv, m, hm, hk, .inr ((mayBe_empty v _).of_key (hset.keys.namingKey hset.usesKey))⟩

/-- **An object answers a field** by having it, or by being empty where type conditions leave some types out. -/
theorem answered_iff (h : Unasked schema fixture top start tree) (hr : Reaches schema top start selections frame)
    (hl : LooksAt schema selections frame narrowed m definition) :
    Answered schema narrowed m definition v ↔ HasField schema frame.type m v.value ∨
      v.value.field? m.field.key = none ∧ m.possible schema frame.type ≠ schema.possibleTypes frame.type ∧
        v.isEmptyObject = true := by
  obtain ⟨scope, -, hscope⟩ := h.walked.of_reaches h.wellFormed hr
  have hknown := hscope.fieldOf? hl
  rw [Answered, (h.untold hr).expects_eq_false_iff hl]
  refine or_congr ?_ (and_congr_left fun _ => by simp [Located.field?])
  constructor
  · rintro ⟨w, hw, hfits⟩
    obtain ⟨value, hvalue, rfl⟩ := Option.map_eq_some_iff.1 hw
    exact ⟨definition, value, hknown, hvalue, hfits⟩
  · rintro ⟨definition', value, hd, hvalue, hfits⟩
    rw [hknown] at hd
    cases hd
    exact ⟨_, Option.map_eq_some_iff.2 ⟨value, hvalue, rfl⟩, hfits⟩

/-- **An object is complete or left out** if and only if it answers all fields that are looked at on it, and all of its
keys are selected for it. -/
theorem isComplete_or_isLeftOut_iff (h : Unasked schema fixture top start tree) :
    IsComplete schema (setsOf schema top start v) v.value ∨ IsLeftOut schema (setsOf schema top start v) v.value ↔
      AnswersAll schema top start v ∧ ∀ k ∈ v.keys, SelectedFor schema top start v k := by
  have hempty : v.isEmptyObject = true ↔ v.value = .obj [] := by
    unfold Located.isEmptyObject
    split <;> simp_all
  constructor
  · rintro (hc | ho)
    · refine ⟨fun selections frame hr narrowed m definition hl hv => ?_, fun k hk => ?_⟩
      · have hasks := h.asks_iff.2 ⟨selections, frame, narrowed, definition, hr, rfl, hl, hv⟩
        exact (h.answered_iff hr hl).2 (.inl (hc.fields _ _ hasks))
      · obtain ⟨value, hvalue⟩ := mem_keys_iff.1 hk
        exact h.selectedFor_iff.2 (hc.keys k value hvalue)
    · have hnone : ∀ k, v.value.field? k = none := by
        intro k
        rw [ho.empty]
        rfl
      refine ⟨fun selections frame hr narrowed m definition hl hv => ?_, fun k hk => ?_⟩
      · have hasks := h.asks_iff.2 ⟨selections, frame, narrowed, definition, hr, rfl, hl, hv⟩
        exact (h.answered_iff hr hl).2 (.inr ⟨hnone _, ho.narrowed _ _ hasks, hempty.2 ho.empty⟩)
      · obtain ⟨value, hvalue⟩ := mem_keys_iff.1 hk
        rw [hnone] at hvalue
        cases hvalue
  · rintro ⟨hanswers, hkeys⟩
    have hfield : ∀ declared m, AsksFor (setsOf schema top start v) declared m → HasField schema declared m v.value ∨
        v.value.field? m.field.key = none ∧ m.possible schema declared ≠ schema.possibleTypes declared ∧
          v.isEmptyObject = true := by
      intro declared m hasks
      obtain ⟨selections, frame, narrowed, definition, hr, rfl, hl, hv⟩ := h.asks_iff.1 hasks
      exact (h.answered_iff hr hl).1 (hanswers selections frame hr narrowed m definition hl hv)
    by_cases he : v.isEmptyObject = true
    · refine .inr ⟨hempty.1 he, fun declared m hasks => ?_⟩
      rcases hfield declared m hasks with ⟨definition, value, -, hvalue, -⟩ | ⟨-, hnarrowed, -⟩
      · rw [hempty.1 he] at hvalue
        cases hvalue
      · exact hnarrowed
    · refine .inl ⟨fun k value hvalue => ?_, fun declared m hasks => ?_⟩
      · exact h.selectedFor_iff.1 (hkeys k (mem_keys_iff.2 ⟨value, hvalue⟩))
      · exact (hfield declared m hasks).resolve_right fun hno => he hno.2.2

end Unasked

end

/-! ## Checks -/

/-- **The verdict on a query without `__typename` is exact**: a check that is not cut off finds nothing wrong if and
only if each object that the walk reaches is complete, or empty and left out by type conditions. -/
theorem untold_errors_eq_nil_iff {document : Document} {name : Option String} {operation : Operation} {root : String}
    {fixture : Json} {result : CheckResult} (hw : schema.IsWellFormed)
    (hv : GraphQL.validate schema document = .ok []) (hc : Compares schema document name operation root)
    (hn : ∀ f ∈ fieldsIn operation.selections, f.name ≠ "__typename") (hf : kindOf fixture = .object)
    (h : check schema document fixture name = .ok result) (ha : result.aborted = false) :
    result.errors = [] ↔
      ∀ selections frame, Reaches schema operation.selections (rootFrame schema root fixture) selections frame →
        ∀ v ∈ frame.values,
          IsComplete schema (setsOf schema operation.selections (rootFrame schema root fixture) v) v.value ∨
          IsLeftOut schema (setsOf schema operation.selections (rootFrame schema root fixture) v) v.value := by
  obtain ⟨operation', root', hc', rfl⟩ := check_eq_ok_iff.1 h
  obtain ⟨rfl, rfl⟩ := hc'.unique hc
  cases ht : (walkOperation schema root' operation' fixture).outcome with
  | error cause =>
    rw [(ofWalk_error ht).1] at ha
    cases ha
  | ok tree =>
    have hwalked := hc.walked (GraphQL.accepts_of_validate hv) hw hf ht
    have hall : Unasked schema fixture operation'.selections (rootFrame schema root' fixture) tree :=
      ⟨hw, hn, rfl, hwalked⟩
    rw [errors_eq_nil_iff_answersAll hw hf ht hwalked]
    refine forall₃_congr fun selections frame hr => forall₂_congr fun v hv => ?_
    exact hall.isComplete_or_isLeftOut_iff.symm

/-! ## A cat and a pet of no kind -/

/-- The names of the cats among the pets. -/
def catsOnly : Operation :=
  ⟨none, .query, none, [], [], [plain "pets" [.inline (some "Cat") [] [plain "name" []]]]⟩

/-- A cat, and a pet that need not be one. -/
def catAndStranger : Json := .obj [("pets", .arr [.obj [("name", .str "Tom")], .obj []])]

/-- The cat is complete and the other pet is left out. -/
theorem catAndStranger_complete_or_leftOut : petSchema.IsWellFormed ∧
    GraphQL.validate petSchema [.operation catsOnly] = .ok [] ∧
    Compares petSchema [.operation catsOnly] none catsOnly "Query" ∧
    (∀ f ∈ fieldsIn catsOnly.selections, f.name ≠ "__typename") ∧ kindOf catAndStranger = .object ∧
    check petSchema [.operation catsOnly] catAndStranger none = .ok ⟨[], false⟩ ∧
    ∀ selections frame,
      Reaches petSchema catsOnly.selections (rootFrame petSchema "Query" catAndStranger) selections frame →
        ∀ v ∈ frame.values,
          IsComplete petSchema (setsOf petSchema catsOnly.selections (rootFrame petSchema "Query" catAndStranger) v)
            v.value ∨
          IsLeftOut petSchema (setsOf petSchema catsOnly.selections (rootFrame petSchema "Query" catAndStranger) v)
            v.value := by
  have hvalid : GraphQL.validate petSchema [.operation catsOnly] = .ok [] := eq_ok_of_toOption (by decide +kernel)
  have hcompares : Compares petSchema [.operation catsOnly] none catsOnly "Query" :=
    ⟨⟨[.operation catsOnly], by cbv, by cbv⟩, by cbv⟩
  have hnames : ∀ f ∈ fieldsIn catsOnly.selections, f.name ≠ "__typename" := by decide
  have hcheck : check petSchema [.operation catsOnly] catAndStranger none = .ok ⟨[], false⟩ := by cbv
  exact ⟨petSchema_isWellFormed, hvalid, hcompares, hnames, rfl, hcheck,
    (untold_errors_eq_nil_iff petSchema_isWellFormed hvalid hcompares hnames rfl hcheck rfl).1 rfl⟩

end FixtureCheck.Fixture
