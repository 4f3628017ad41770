import FixtureCheck.Proofs.Response.Replaced

/-!
# Fields with their selections split

Each selection of a field is walked on its own: with its own key for type names, its own scope and its own need for type
names. So a field with two runs of selections finds what two fields with one run each find if the runs are read alike
(`ReadAlike`, `found_walkSet_append`), and a document with fields split into such parts comes to the same verdict
(`check_split`). Parts that are not read alike can come to another one (`split_changes_verdict`).
-/

namespace FixtureCheck.Fixture

open GraphQL (Schema Document Field Selection Operation OutputField)
open Expectation

/-- **Are two runs of selections read in a frame as they are read together?** They need names of types if they do
together; the same key for type names is in force for both; and if there is none, the key under which objects
nevertheless name their types is the same, unless a run has no field under a type condition. -/
structure ReadAlike (schema : Schema) (frame : Frame) (first second : List Selection) : Prop where
  ambiguous : lacksTypename schema frame (first ++ second) = true ↔
    lacksTypename schema frame first = true ∨ lacksTypename schema frame second = true
  key : (frame.inSet first).typenameKey = (frame.inSet second).typenameKey
  naming : (frame.inSet first).typenameKey = none → ∀ part ∈ [first, second],
    namingKey schema part frame = namingKey schema (first ++ second) frame ∨ ∀ m ∈ metIn [] part, m.conditions = []

/-- **A field with selections in two runs, and two fields with one run each.** -/
inductive Splits : List Selection → List Selection → Prop where
  | intro {before after first second : List Selection} {f : Field} (first_ne : first ≠ []) (second_ne : second ≠ []) :
      Splits (before ++ .field f (first ++ second) :: after) (before ++ .field f first :: .field f second :: after)

/-- **A field split where a walk meets it, with runs that are read alike below it.** -/
inductive SplitsAlike (schema : Schema) (key : Option String) (frame : Frame) :
    List Selection → List Selection → Prop where
  | intro {before after first second : List Selection} {f : Field} (first_ne : first ≠ []) (second_ne : second ≠ [])
      (alike : ∀ definition, schema.fieldOf? (some frame.type) f.name = some definition →
        ReadAlike schema
          ((frame.inSet (before ++ .field f (first ++ second) :: after)).below schema f.key definition) first second) :
      SplitsAlike schema key frame (before ++ .field f (first ++ second) :: after)
        (before ++ .field f first :: .field f second :: after)

/-! ## Parts of a set -/

section

variable {schema : Schema} {key key' : Option String} {objects : List Located} {frame : Frame}
  {first second part : List Selection}

/-- Where no field stands under a type condition, the key for type names does not matter to a scope. -/
theorem foundBy_of_conditions_eq_nil {declared : String} {values : List Located}
    (hf : frame.IsAt schema declared values []) (h : ∀ m ∈ metIn [] part, m.conditions = []) :
    foundBy schema key objects (setSteps schema [] part frame) =
      foundBy schema key' objects (setSteps schema [] part frame) := by
  by_cases hcut : .cutOff ∈ foundBy schema key objects (setSteps schema [] part frame)
  · rw [foundBy_eq_univ hcut, foundBy_eq_univ (cutOff_mem_foundBy.2 (cutOff_mem_foundBy.1 hcut))]
  · have hstop : ∀ cause, Step.stop cause ∉ setSteps schema [] part frame :=
      fun cause hs => hcut ⟨_, hs, Set.mem_univ _⟩
    have hsame : ∀ s ∈ setSteps schema [] part frame, s.found schema key objects = s.found schema key' objects := by
      intro s hs
      cases s with
      | stop cause => rfl
      | set conditions narrowed inner => rfl
      | field conditions narrowed f inner =>
        have hm : ⟨conditions, f, inner⟩ ∈ metIn [] part := (mem_metIn_iff hstop).2 ⟨narrowed, hs⟩
        have hnil : conditions = [] := h _ hm
        have hnone : narrowed.condition = none := by rw [(isAt_of_field_mem hf hs).condition, hnil]; rfl
        simp only [Step.found, hnone, true_or]
    ext x
    exact exists_congr fun s => and_congr_right fun hs => by rw [hsame s hs]

theorem inSet_congr {selections selections' : List Selection}
    (h : (frame.inSet selections).typenameKey = (frame.inSet selections').typenameKey) :
    frame.inSet selections = frame.inSet selections' := by
  rw [Frame.typenameKey_inSet, Frame.typenameKey_inSet] at h
  rw [Frame.inSet_eq, Frame.inSet_eq, h]

theorem typenameKey?_append (first second : List Selection) :
    typenameKey? (first ++ second) = (typenameKey? first).or (typenameKey? second) := by
  rw [typenameKey?, List.findSome?_append]
  rfl

namespace ReadAlike

/-- The key in force for both runs is in force for them together. -/
theorem inSet_append (h : ReadAlike schema frame first second) : frame.inSet (first ++ second) = frame.inSet first ∧
    frame.inSet (first ++ second) = frame.inSet second := by
  have hkey := h.key
  rw [Frame.typenameKey_inSet, Frame.typenameKey_inSet] at hkey
  have hboth : (frame.inSet (first ++ second)).typenameKey = (frame.inSet first).typenameKey := by
    rw [Frame.typenameKey_inSet, Frame.typenameKey_inSet, typenameKey?_append, Option.or_assoc, ← hkey]
    cases typenameKey? first <;> rfl
  exact ⟨inSet_congr hboth, inSet_congr (hboth.trans h.key)⟩

/-- Together, runs that are read alike find what each of them finds. -/
theorem foundBy_append (h : ReadAlike schema frame first second) (hfirst : first ≠ []) (hsecond : second ≠ []) :
    foundBy schema key objects (setSteps schema [] (first ++ second) frame) =
      foundBy schema key objects (setSteps schema [] first frame) ∪
        foundBy schema key objects (setSteps schema [] second frame) := by
  obtain ⟨hin, hin'⟩ := h.inSet_append
  rw [setSteps_of_ne_nil [] (by simp [hfirst]), setSteps_of_ne_nil [] hfirst, setSteps_of_ne_nil [] hsecond]
  by_cases hl : lacksTypename schema frame (first ++ second) = true
  · rw [if_pos hl]
    rcases h.ambiguous.1 hl with hl | hl
    · rw [if_pos hl]
      simp
    · rw [if_pos hl]
      simp
  · have hno := mt h.ambiguous.2 hl
    rw [not_or] at hno
    rw [if_neg hl, if_neg hno.1, if_neg hno.2, ← hin, ← hin']
    simp only [selectionsSteps_append, foundBy_cons, found_set, Fixture.foundBy_append, Set.empty_union]

/-- **Together, runs that are read alike find for their scope what each of them finds for its own.** -/
theorem foundBy_parts (h : ReadAlike schema frame first second) {declared : String} {values : List Located}
    (hf : frame.IsAt schema declared values []) (hfirst : first ≠ []) (hsecond : second ≠ []) :
    foundBy schema (namingKey schema (first ++ second) frame) objects (setSteps schema [] (first ++ second) frame) =
      foundBy schema (namingKey schema first frame) objects (setSteps schema [] first frame) ∪
        foundBy schema (namingKey schema second frame) objects (setSteps schema [] second frame) := by
  rw [h.foundBy_append hfirst hsecond]
  by_cases hcut : .cutOff ∈ foundBy schema (namingKey schema (first ++ second) frame) objects
      (setSteps schema [] first frame) ∪ foundBy schema (namingKey schema (first ++ second) frame) objects
        (setSteps schema [] second frame)
  · -- one of the runs cuts the walk off, whatever the key
    have hunion : ∀ key key', foundBy schema key objects (setSteps schema [] first frame) ∪
        foundBy schema key' objects (setSteps schema [] second frame) = Set.univ := by
      intro key key'
      rcases hcut with hcut | hcut
      · rw [foundBy_eq_univ (cutOff_mem_foundBy.2 (cutOff_mem_foundBy.1 hcut)), Set.univ_union]
      · rw [foundBy_eq_univ (cutOff_mem_foundBy.2 (cutOff_mem_foundBy.1 hcut)), Set.union_univ]
    rw [hunion, hunion]
  · rw [← h.foundBy_append hfirst hsecond] at hcut
    have hlacks : ¬ lacksTypename schema frame (first ++ second) = true := by
      intro hl
      rw [setSteps_of_ne_nil [] (by simp [hfirst]), if_pos hl] at hcut
      simp at hcut
    have hno := mt h.ambiguous.2 hlacks
    rw [not_or] at hno
    have hparts : ∀ part ∈ [first, second], namingKey schema part frame = namingKey schema (first ++ second) frame ∨
        ∀ m ∈ metIn [] part, m.conditions = [] := by
      cases hkey : (frame.inSet first).typenameKey with
      | none => exact h.naming hkey
      | some key =>
        have hnamed : ∀ {selections : List Selection}, selections ≠ [] →
            ¬ lacksTypename schema frame selections = true → (frame.inSet selections).typenameKey = some key →
              namingKey schema selections frame = some key := by
          intro selections hne hl hin
          rw [namingKey, setSteps_of_ne_nil [] hne, if_neg hl, List.findSome?_cons, Step.typenameKey?, hin]
        obtain ⟨hin, -⟩ := h.inSet_append
        have hboth := hnamed (by simp [hfirst]) hlacks (by rw [hin, hkey])
        rw [hboth]
        simp only [List.mem_cons, List.not_mem_nil, or_false, forall_eq_or_imp, forall_eq]
        exact ⟨.inl (hnamed hfirst hno.1 hkey), .inl (hnamed hsecond hno.2 (h.key ▸ hkey))⟩
    have hpart : ∀ part ∈ [first, second],
        foundBy schema (namingKey schema (first ++ second) frame) objects (setSteps schema [] part frame) =
          foundBy schema (namingKey schema part frame) objects (setSteps schema [] part frame) := by
      intro part hmem
      rcases hparts part hmem with hsame | hnone
      · rw [hsame]
      · exact foundBy_of_conditions_eq_nil hf hnone
    rw [hpart first (by simp), hpart second (by simp)]

end ReadAlike

/-- **A walk through runs that are read alike finds what the walks through each of them find.** -/
theorem found_walkSet_append {declared : String} {values : List Located} (hf : frame.IsAt schema declared values [])
    (h : ReadAlike schema frame first second) (hfirst : first ≠ []) (hsecond : second ≠ []) (name : Option String) :
    (walkSet schema (first ++ second) frame (.holding name frame.values)).found =
      (walkSet schema first frame (.holding name frame.values)).found ∪
        (walkSet schema second frame (.holding name frame.values)).found := by
  rw [found_walkSet, found_walkSet, found_walkSet, h.foundBy_parts hf hfirst hsecond, Set.union_union_distrib_left]

/-- **A field split into runs that are read alike finds the same.** -/
theorem keepsFindings_splitsAlike (schema : Schema) : KeepsFindings schema (SplitsAlike schema) := by
  rintro key frame _ _ ⟨hfirst, hsecond, halike⟩ - objects -
  rename_i before after first second f
  show FindsSame schema key objects frame (before ++ ([.field f (first ++ second)] ++ after))
    (before ++ ([.field f first, .field f second] ++ after))
  refine findsSame_of_run (List.cons_ne_nil _ _) (List.cons_ne_nil _ _) ?_ ?_ (fun conditions => ?_)
    fun conditions _ => ?_
  · simp only [typenameKey?, List.findSome?_append, List.findSome?_cons]
    split <;> simp_all
  · simp [inlineFragments, List.filter_append]
  · let inside := frame.inSet (before ++ .field f (first ++ second) :: after)
    have htype : inside.type = frame.type := type_withTypenameKey ..
    show foundBy schema key objects (selectionsSteps schema conditions [.field f (first ++ second)] inside) =
      foundBy schema key objects (selectionsSteps schema conditions [.field f first, .field f second] inside)
    simp only [selectionsSteps, selectionSteps, List.append_nil, List.singleton_append, foundBy_cons, foundBy_nil,
      Set.union_empty, Step.found, htype]
    cases hd : schema.fieldOf? (some frame.type) f.name with
    | none => simp
    | some definition =>
      have hbelow : (walkBelow schema inside f definition (first ++ second)).found =
          (walkBelow schema inside f definition first).found ∪ (walkBelow schema inside f definition second).found :=
        found_walkSet_append (Frame.isAt_forField ..) (halike definition hd) hfirst hsecond (some f.key)
      simp only [List.isEmpty_iff, List.append_eq_nil_iff, hfirst, hsecond, and_self, if_false, hbelow]
      -- the field's own findings are found once here, twice there
      rw [Set.union_union_distrib_left]
  · simp only [selectionsSteps, selectionSteps, List.append_nil, List.singleton_append, List.findSome?_cons,
      Step.typenameKey?, List.findSome?_nil]

end

/-! ## Checks -/

/-- A split field spreads what it did. -/
theorem isOutlined_splits (document : Document) : GraphQL.IsOutlined Splits none document where
  new := by simp
  known := by simp
  less := by
    rintro _ _ ⟨-, -⟩ name hname
    have hfield : ∀ {f : Field} {selections : List Selection},
        name ∈ GraphQL.spreadsAt (.field f selections) ↔ name ∈ GraphQL.spreadNames selections := .rfl
    simp only [GraphQL.mem_spreadNames_append, GraphQL.mem_spreadNames_cons, hfield] at hname ⊢
    tauto

/-- **Splitting fields keeps the verdict** where both parts are read alike. -/
theorem check_split {schema : Schema} (hw : schema.IsWellFormed) {document document' : Document}
    (hv : GraphQL.validate schema document = .ok []) (h : GraphQL.DocumentRewritten Splits none document document')
    (fixture : Json) (name : Option String)
    (hs : ∀ o o' root, Compares schema document name o root → Compares schema document' name o' root →
      ReplacedIn schema (SplitsAlike schema) (namingKey schema o.selections (startFrame schema root fixture))
        (startFrame schema root fixture) o.selections o'.selections) :
    IsOneVerdict (check schema document fixture name) (check schema document' fixture name) :=
  check_replaced hw (GraphQL.accepts_of_validate hv) (isOutlined_splits document) h
    (keepsFindings_splitsAlike schema) name hs

/-! ### Cats and dogs apart -/

/-- The operation of a query for pets. -/
def petOperation (selections : List Selection) : Operation := ⟨none, .query, none, [], [], selections⟩

/-- The names of cats. -/
def ofCats : Selection := .inline (some "Cat") [] [plain "name" []]

/-- The friends of dogs. -/
def ofDogs : Selection := .inline (some "Dog") [] [plain "friend" [plain "__typename" []]]

/-- The names of cats and the friends of dogs, and the types of pets twice. -/
def together : Operation :=
  petOperation [plain "pets" ([plain "__typename" [], ofCats] ++ [plain "__typename" [], ofDogs])]

/-- The types and names of cats, and the types and friends of dogs. -/
def apart : Operation :=
  petOperation [plain "pets" [plain "__typename" [], ofCats], plain "pets" [plain "__typename" [], ofDogs]]

theorem compares_together : Compares petSchema [.operation together] none together "Query" :=
  ⟨⟨[.operation together], by cbv, by cbv⟩, by cbv⟩

theorem compares_apart : Compares petSchema [.operation apart] none apart "Query" :=
  ⟨⟨[.operation apart], by cbv, by cbv⟩, by cbv⟩

theorem rewritten_apart : GraphQL.DocumentRewritten Splits none [.operation together] [.operation apart] :=
  ⟨[.operation apart], .cons (.operation (.set (@Splits.intro [] [] _ _ _ (by simp) (by simp)))) .nil, rfl⟩

/-- Both parts name types by the key `__typename`. -/
theorem readAlike_apart (frame : Frame) :
    ReadAlike petSchema frame [plain "__typename" [], ofCats] [plain "__typename" [], ofDogs] where
  ambiguous := by simp [lacksTypename, typenameKey?, plain]
  key := by rw [Frame.typenameKey_inSet, Frame.typenameKey_inSet]; rfl
  naming := by
    intro hnone
    rw [Frame.typenameKey_inSet] at hnone
    cases hnone

theorem check_together : check petSchema [.operation together] halfTold none =
    .ok ⟨[(Mismatch.missing "name").message, (Mismatch.missing "friend").message], false⟩ :=
  compares_together.check_eq [.missing "name", .missing "friend"] [] (by cbv) (by cbv)

/-- A cat without a name and a dog that does not tell its friend are missed in one field and in two. -/
theorem halfTold_split :
    check petSchema [.operation together] halfTold none =
      .ok ⟨[(Mismatch.missing "name").message, (Mismatch.missing "friend").message], false⟩ ∧
    IsOneVerdict (check petSchema [.operation together] halfTold none)
      (check petSchema [.operation apart] halfTold none) := by
  refine ⟨check_together, check_split petSchema_isWellFormed (eq_ok_of_toOption (by decide +kernel)) rewritten_apart
    halfTold none fun o o' root hc hc' => ?_⟩
  obtain ⟨rfl, rfl⟩ := hc.unique compares_together
  obtain ⟨rfl, -⟩ := hc'.unique compares_apart
  exact .set (@SplitsAlike.intro _ _ _ [] [] _ _ _ (by simp) (by simp) fun definition _ => readAlike_apart _)

/-- The types of pets, and then what cats and dogs have. -/
def typesFirst : Operation :=
  petOperation [plain "pets" [plain "__typename" []], plain "pets" [ofCats, ofDogs]]

/-- The same in one field. -/
def typesWithin : Operation := petOperation [plain "pets" ([plain "__typename" []] ++ [ofCats, ofDogs])]

theorem validate_typesWithin : GraphQL.validate petSchema [.operation typesWithin] = .ok [] :=
  eq_ok_of_toOption (by decide +kernel)

theorem check_typesWithin_pets : check petSchema [.operation typesWithin] pets none = .ok ⟨[], false⟩ := by cbv

/-- **A field split into parts that are not read alike can come to another verdict**: where the part with the fragments
does not ask for types, the walk is cut off. -/
theorem split_changes_verdict :
    ¬ ∀ (schema : Schema) (document document' : Document) (fixture : Json) (name : Option String)
      (result result' : CheckResult), schema.IsWellFormed → GraphQL.validate schema document = .ok [] →
      GraphQL.DocumentRewritten Splits none document document' →
      check schema document fixture name = .ok result → check schema document' fixture name = .ok result' →
      result.aborted = result'.aborted ∧ (result.errors = [] ↔ result'.errors = []) := by
  intro hall
  have hrewritten : GraphQL.DocumentRewritten Splits none [.operation typesWithin] [.operation typesFirst] :=
    ⟨[.operation typesFirst], .cons (.operation (.set (@Splits.intro [] [] _ _ _ (by simp) (by simp)))) .nil,
      rfl⟩
  have hfirst : Compares petSchema [.operation typesFirst] none typesFirst "Query" :=
    ⟨⟨[.operation typesFirst], by cbv, by cbv⟩, by cbv⟩
  have hcut : (walkOperation petSchema "Query" typesFirst pets).outcome = .error (.missingTypename "Pet") := by cbv
  obtain ⟨haborted, -⟩ := hall petSchema _ _ pets none _ _ petSchema_isWellFormed validate_typesWithin hrewritten
    check_typesWithin_pets (check_eq_ok_iff.2 ⟨typesFirst, "Query", hfirst, rfl⟩)
  rw [(ofWalk_error hcut).1] at haborted
  cases haborted

end FixtureCheck.Fixture
