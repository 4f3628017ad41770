import FixtureCheck.Proofs.Walk.Altered
import FixtureCheck.Proofs.Walk.Counterpart
import FixtureCheck.Proofs.Walk.TypeNames

/-!
# Ordinary values

The values of fields but `__typename` are ordinary: the check of a field asks whether its type takes them and no more
(`IsOrdinary`). Ordinary values are read as names of types all the same where a key for type names, which holds for the
sets further in as well, is the key of such a field (`ReadsTypeAt`). Where it is not, the objects of a fixture have
counterparts in one with other ordinary values (`hasCounterparts_of_stands`), and the walk leaves the same keys over
(`extraFields_exchange`). So both fixtures get the same verdict (`check_ignores_ordinary`).
-/

namespace FixtureCheck.Fixture

open GraphQL (Schema Document Selection OutputField Operation)
open Expectation

/-! ## What a walk looks at -/

section

variable (schema : Schema) (top : List Selection) (start : Frame)

/-- Does a walk look at the value at a place through a field? -/
def LooksAtPlace (path : Json.Path) (m : Met) (definition : OutputField) : Prop :=
  ∃ selections frame narrowed v, Reaches schema top start selections frame ∧
    LooksAt schema selections frame narrowed m definition ∧ v ∈ narrowed.values ∧ path = v.path ++ [.key m.field.key]

/-- **Is a value at a place, and another one instead, ordinary**: one that an object has under the key of a field but
`__typename`, whose type stands for leaves and takes both? -/
structure IsOrdinary (path : Json.Path) (value value' : Json) : Prop where
  looked : ∃ m definition, LooksAtPlace schema top start path m definition
  named : ∀ m definition, LooksAtPlace schema top start path m definition → m.field.name ≠ "__typename"
  taken : ∀ m definition, LooksAtPlace schema top start path m definition →
    schema.isInputType definition.type = true ∧ TakesBoth schema definition.type value value'

/-- Do the fields that a walk looks at take a value with parts and another one instead, if they take it as a whole? -/
def IsTakenAsWhole (path : Json.Path) (value value' : Json) : Prop :=
  ∀ m definition, LooksAtPlace schema top start path m definition → schema.isInputType definition.type = true →
    TakesBoth schema definition.type value value'

/-- **Does a walk read a name of a type at a place**: where an object of a set that it reaches has a value under a key
for type names that the set has, that an inline fragment in it has, or that comes from a set around? -/
def ReadsTypeAt (path : Json.Path) : Prop :=
  ∃ selections frame step conditions inner key v, Reaches schema top start selections frame ∧
    step ∈ setSteps schema [] selections frame ∧ step.place? = some (conditions, inner) ∧
      inner.typenameKey = some key ∧ v ∈ frame.values ∧ path = v.path ++ [.key key]

/-- Is a value ordinary, and at a place where no name of a type is read? -/
def IsUnread (path : Json.Path) (value value' : Json) : Prop :=
  IsOrdinary schema top start path value value' ∧ ¬ ReadsTypeAt schema top start path

end

section

variable {schema : Schema} {top selections : List Selection} {start frame narrowed : Frame} {m : Met}
  {definition : OutputField} {fixture fixture' : Json}

theorem IsOrdinary.exists_key {path : Json.Path} {value value' : Json}
    (h : IsOrdinary schema top start path value value') : ∃ outer key, path = outer ++ [.key key] := by
  obtain ⟨m, definition, selections, frame, narrowed, v, -, -, -, hpath⟩ := h.looked
  exact ⟨v.path, m.field.key, hpath⟩

/-- Ordinary values stand under keys, so they are no items of arrays. -/
theorem sparesItems_unread : SparesItems (IsUnread schema top start) := by
  intro path i value value' h
  obtain ⟨outer, key, hpath⟩ := h.1.exists_key
  have hlast := (List.append_inj' hpath rfl).2
  cases hlast

/-! ## Objects and what they are altered to -/

/-- Does a value stand in a fixture, and in another one with ordinary values inside that are not read as types? -/
structure Stands (schema : Schema) (top : List Selection) (start : Frame) (fixture fixture' : Json) (v : Located) :
    Prop where
  here : v.IsIn fixture
  there : (counterpart fixture' v).IsIn fixture'
  corresponds : v.Corresponds (IsUnread schema top start) (IsTakenAsWhole schema top start) (counterpart fixture' v)

/-- An object and its counterpart report the same types in a set that the walk reaches. -/
theorem Stands.typename?_eq {v : Located} (h : Stands schema top start fixture fixture' v)
    (hr : Reaches schema top start selections frame) (hv : v ∈ frame.values) {step : Step} {conditions : List String}
    {inner : Frame} (hm : step ∈ setSteps schema [] selections frame) (hp : step.place? = some (conditions, inner)) :
    typename? v.value inner.typenameKey = typename? (counterpart fixture' v).value inner.typenameKey := by
  cases hkey : inner.typenameKey with
  | none => rfl
  | some key =>
    refine Fixture.typename?_eq h.corresponds fun value value' hunread => hunread.2 ?_
    exact ⟨selections, frame, step, conditions, inner, key, v, hr, hm, hp, hkey, hv, rfl⟩

/-- The check of a field on the counterpart of an object reports the same, and goes on with counterparts. -/
theorem checkField_counterpart (hr : Reaches schema top start selections frame)
    (hl : LooksAt schema selections frame narrowed m definition) {u : Located} (hu : u ∈ narrowed.values)
    (h : Stands schema top start fixture fixture' u) (values : List Located) :
    let result := checkField schema narrowed m.field.key definition.type u
    let result' := checkField schema { narrowed with values } m.field.key definition.type (counterpart fixture' u)
    result'.errors = result.errors ∧ result'.children = result.children.map (counterpart fixture') ∧
      ∀ c ∈ result.children, Stands schema top start fixture fixture' c := by
  intro result result'
  have hplace : LooksAtPlace schema top start (u.path ++ [.key m.field.key]) m definition :=
    ⟨selections, frame, narrowed, u, hr, hl, hu, rfl⟩
  have htype := h.typename?_eq hr (values_of_mem_setSteps rfl hl.step u hu) hl.step rfl
  have hc : result.Corresponds (IsUnread schema top start) (IsTakenAsWhole schema top start) result' :=
    corresponds_checkField sparesItems_unread h.corresponds htype
      (fun value value' hm => hm.1.taken m definition hplace) fun value value' hw => hw m definition hplace
  obtain ⟨hmap, hall⟩ := map_counterpart (fun _ _ h => h.1) hc.children fun c' hc' => isIn_of_mem_checkField h.there hc'
  exact ⟨hc.errors.symm, hmap, fun c hm => ⟨isIn_of_mem_checkField h.here hm, (hall c hm).1, (hall c hm).2⟩⟩

/-- **Objects have counterparts among other ordinary values**, where none of these is read as the name of a type. -/
theorem hasCounterparts_of_stands (hstart : ∀ v ∈ start.values, Stands schema top start fixture fixture' v) :
    HasCounterparts schema fixture fixture' (Stands schema top start fixture fixture') top start where
  starts := hstart
  isIn _ h := h.here
  kindOf_eq _ h := h.corresponds.2.kindOf_eq.symm
  typename?_eq _ _ hr _ hv h _ hm _ _ hp := (h.typename?_eq hr hv hm hp).symm
  checks _ _ hr _ _ _ hl _ hu h values := checkField_counterpart hr hl hu h values

/-- **A tree leaves the same keys over with the counterparts of its objects.** -/
theorem extraFields_exchange (hstart : ∀ v ∈ start.values, Stands schema top start fixture fixture' v)
    {tree : Expectation} (hb : Builds schema top start tree) :
    extraFields (tree.exchange (List.map (counterpart fixture'))) = extraFields tree := by
  have hcounterparts := hasCounterparts_of_stands hstart
  rw [extraFields, extraFields, distinctObjects_counterpart, List.flatMap_map]
  refine List.flatMap_congr fun v hv => ?_
  have hstands := hcounterparts.stands_of_mem hb hv
  rw [← keys_eq hstands.corresponds]
  exact List.filter_congr fun k _ => congrArg (!·) (hcounterparts.isExpected_counterpart hb hstands k)

end

/-! ## Checks -/

section

variable {schema : Schema} {operation : Operation} {root : String} {fixture fixture' : Json}

/-- A fixture stands in another one that it is altered to. -/
theorem stands_rootFrame {top : List Selection}
    (h : Json.Altered (IsUnread schema top (rootFrame schema root fixture))
      (IsTakenAsWhole schema top (rootFrame schema root fixture)) [] fixture fixture') :
    ∀ v ∈ (rootFrame schema root fixture).values,
      Stands schema top (rootFrame schema root fixture) fixture fixture' v := by
  intro v hv
  obtain rfl := List.mem_singleton.1 hv
  refine ⟨isIn_root fixture, by rw [counterpart_root]; exact isIn_root fixture', ?_⟩
  rw [counterpart_root]
  refine ⟨rfl, h.parted fun hunread => ?_⟩
  obtain ⟨outer, key, hpath⟩ := hunread.1.exists_key
  simp at hpath

/-- Walks through a fixture and one that it is altered to amount to the same. -/
theorem ofWalk_of_altered
    (h : Json.Altered (IsUnread schema operation.selections (rootFrame schema root fixture))
      (IsTakenAsWhole schema operation.selections (rootFrame schema root fixture)) [] fixture fixture') :
    CheckResult.ofWalk (walkOperation schema root operation fixture) =
      CheckResult.ofWalk (walkOperation schema root operation fixture') := by
  have hstart := stands_rootFrame h
  have hcounterparts := hasCounterparts_of_stands hstart
  by_cases hk : kindOf fixture = .object
  · obtain ⟨herrors, houtcome⟩ := hcounterparts.walkOperation_counterpart hk
    rw [CheckResult.ofWalk, CheckResult.ofWalk, houtcome, herrors]
    cases hw : (walkOperation schema root operation fixture).outcome with
    | error cause => rfl
    | ok tree =>
      rw [walkOperation_of_object hk] at hw
      have hextra := extraFields_exchange hstart ⟨none, hw⟩
      simp only [Except.map, hextra]
  · rw [hcounterparts.walkOperation_of_not_object hk]

/-- **Ordinary values are no names of types**: fixtures that differ in ordinary values alone, at places where no name of
a type is read, get the same verdict. -/
theorem check_ignores_ordinary {document : Document} {name : Option String}
    (h : ∀ operation root, Compares schema document name operation root →
      Json.Altered (IsUnread schema operation.selections (rootFrame schema root fixture))
        (IsTakenAsWhole schema operation.selections (rootFrame schema root fixture)) [] fixture fixture') :
    check schema document fixture name = check schema document fixture' name := by
  unfold check
  cases hi : GraphQL.inline document with
  | error cause => rfl
  | ok inlined =>
    simp only [Except.mapError, bind, Except.bind]
    cases ho : selectOperation inlined name with
    | error cause => rfl
    | ok operation =>
      simp only
      cases hr : rootType schema operation with
      | error cause => rfl
      | ok root =>
        have hwalk := ofWalk_of_altered (h operation root ⟨⟨inlined, hi, ho⟩, hr⟩)
        simp only [hwalk]

end

/-! ## A cat of the type Tom -/

/-- A cat has a name. -/
def catSchema : Schema where
  types :=
    ⟨"Query", .object [] [⟨"cat", .named "Cat", []⟩]⟩ ::
    ⟨"Cat", .object [] [⟨"name", .nonNull (.named "String"), []⟩]⟩ ::
    GraphQL.Standard.types
  query := some "Query"
  mutation := none
  subscription := none
  directives := GraphQL.Standard.directives

theorem catSchema_isWellFormed : catSchema.IsWellFormed where
  named := by decide +kernel
  distinct := by decide +kernel
  output := by decide +kernel
  members := by decide +kernel
  text := rfl
  aboutSchema := by decide +kernel
  aboutTypes := by decide +kernel

/-- The name of the cat, twice. -/
def catNames : List Selection := [.field ⟨some "label", "name", [], []⟩ [], plain "name" []]

/-- A query for the name of the cat, and for the type of the query under a key. -/
def catOperation (key : String) : Operation :=
  ⟨none, .query, none, [], [], [.field ⟨some key, "__typename", [], []⟩ [], plain "cat" catNames]⟩

/-- A cat that is catLabelled with a text, and has no name. -/
def catLabelled (key text : String) : Json := .obj [("cat", .obj [("label", .str text)]), (key, .str "Query")]

/-- The frame of the query for the cat. -/
def queryFrame (key text : String) : Frame :=
  (rootFrame catSchema "Query" (catLabelled key text)).withTypenameKey (some key)

/-- The frame of the cat. -/
def catFrame (key text : String) : Frame :=
  (queryFrame key text).below catSchema "cat" ⟨"cat", .named "Cat", []⟩

theorem setSteps_query (key text : String) :
    setSteps catSchema [] (catOperation key).selections (rootFrame catSchema "Query" (catLabelled key text)) =
      [.set [] (queryFrame key text) (catOperation key).selections,
        .field [] (queryFrame key text) ⟨some key, "__typename", [], []⟩ [],
        .field [] (queryFrame key text) ⟨none, "cat", [], []⟩ catNames] := by cbv

theorem setSteps_cat (key text : String) :
    setSteps catSchema [] catNames (catFrame key text) =
      [.set [] (catFrame key text) catNames,
        .field [] (catFrame key text) ⟨some "label", "name", [], []⟩ [],
        .field [] (catFrame key text) ⟨none, "name", [], []⟩ []] := by cbv

theorem values_catFrame (key text : String) :
    (catFrame key text).values = [⟨[.key "cat"], .obj [("label", .str text)]⟩] := by cbv

theorem fieldOf?_cat : catSchema.fieldOf? (some "Query") "cat" = some ⟨"cat", .named "Cat", []⟩ := by cbv

theorem fieldOf?_name :
    catSchema.fieldOf? (some "Cat") "name" = some ⟨"name", .nonNull (.named "String"), []⟩ := by cbv

/-- The walk for the cat comes to the query and to the cat. -/
theorem reaches_cat {key text : String} {selections : List Selection} {frame : Frame}
    (h : Reaches catSchema (catOperation key).selections (rootFrame catSchema "Query" (catLabelled key text)) selections
      frame) :
    selections = (catOperation key).selections ∧ frame = rootFrame catSchema "Query" (catLabelled key text) ∨
      selections = catNames ∧ frame = catFrame key text := by
  induction h with
  | here => exact .inl ⟨rfl, rfl⟩
  | @field selections frame narrowed m definition reached looks nonempty ih =>
    obtain ⟨step, known⟩ := looks
    obtain ⟨conditions, f, inner⟩ := m
    rcases ih with ⟨rfl, rfl⟩ | ⟨rfl, rfl⟩
    · rw [setSteps_query] at step
      simp only [List.mem_cons, List.not_mem_nil, or_false, reduceCtorEq, false_or, Step.field.injEq] at step
      rcases step with ⟨rfl, rfl, rfl, rfl⟩ | ⟨rfl, rfl, rfl, rfl⟩
      · exact absurd rfl nonempty
      · have hsame := fieldOf?_cat.symm.trans known
        cases hsame
        exact .inr ⟨rfl, rfl⟩
    · rw [setSteps_cat] at step
      simp only [List.mem_cons, List.not_mem_nil, or_false, reduceCtorEq, false_or, Step.field.injEq] at step
      rcases step with ⟨-, -, -, rfl⟩ | ⟨-, -, -, rfl⟩ <;> exact absurd rfl nonempty

/-- The walk for the cat looks at the type of the query, at the cat, at its label and at its name. -/
theorem looksAtPlace_cat {key text : String} {path : Json.Path} {m : Met} {definition : OutputField}
    (h : LooksAtPlace catSchema (catOperation key).selections (rootFrame catSchema "Query" (catLabelled key text)) path
      m definition) :
    path = [.key key] ∨ path = [.key "cat"] ∧ definition.type = .named "Cat" ∨ path = [.key "cat", .key "name"] ∨
      path = [.key "cat", .key "label"] ∧ m.field.name = "name" ∧ definition.type = .nonNull (.named "String") := by
  obtain ⟨selections, frame, narrowed, v, hr, ⟨step, known⟩, hv, rfl⟩ := h
  obtain ⟨conditions, f, inner⟩ := m
  have hvalues : ∀ u ∈ (queryFrame key text).values, u.path = [] := by
    intro u hu
    rw [List.mem_singleton.1 hu]
  rcases reaches_cat hr with ⟨rfl, rfl⟩ | ⟨rfl, rfl⟩
  · rw [setSteps_query] at step
    simp only [List.mem_cons, List.not_mem_nil, or_false, reduceCtorEq, false_or, Step.field.injEq] at step
    rcases step with ⟨rfl, rfl, rfl, rfl⟩ | ⟨rfl, rfl, rfl, rfl⟩
    · rw [hvalues v hv]
      exact .inl rfl
    · rw [hvalues v hv]
      have hsame := fieldOf?_cat.symm.trans known
      cases hsame
      exact .inr (.inl ⟨rfl, rfl⟩)
  · rw [setSteps_cat] at step
    simp only [List.mem_cons, List.not_mem_nil, or_false, reduceCtorEq, false_or, Step.field.injEq] at step
    rcases step with ⟨rfl, rfl, rfl, rfl⟩ | ⟨rfl, rfl, rfl, rfl⟩
    · rw [values_catFrame, List.mem_singleton] at hv
      subst hv
      have hsame := fieldOf?_name.symm.trans known
      cases hsame
      exact .inr (.inr (.inr ⟨rfl, rfl, rfl⟩))
    · rw [values_catFrame, List.mem_singleton] at hv
      subst hv
      exact .inr (.inr (.inl rfl))

theorem takesBoth_text (s t : String) : TakesBoth catSchema (.nonNull (.named "String")) (.str s) (.str t) :=
  ⟨by cbv, by cbv⟩

/-- Texts on the label of the cat are ordinary. -/
theorem isOrdinary_label (key text s t : String) :
    IsOrdinary catSchema (catOperation key).selections (rootFrame catSchema "Query" (catLabelled key text))
      [.key "cat", .key "label"] (.str s) (.str t) := by
  have hall : ∀ m definition, LooksAtPlace catSchema (catOperation key).selections
      (rootFrame catSchema "Query" (catLabelled key text)) [.key "cat", .key "label"] m definition →
      m.field.name = "name" ∧ definition.type = .nonNull (.named "String") := by
    intro m definition h
    rcases looksAtPlace_cat h with h | ⟨h, -⟩ | h | ⟨-, h⟩
    · simp at h
    · simp at h
    · simp at h
    · exact h
  refine ⟨?_, fun m definition h => ?_, fun m definition h => ?_⟩
  · have hcat : LooksAt catSchema (catOperation key).selections (rootFrame catSchema "Query" (catLabelled key text))
        (queryFrame key text) ⟨[], ⟨none, "cat", [], []⟩, catNames⟩ ⟨"cat", .named "Cat", []⟩ :=
      ⟨by rw [setSteps_query]; simp, fieldOf?_cat⟩
    have hlabel : LooksAt catSchema catNames (catFrame key text) (catFrame key text)
        ⟨[], ⟨some "label", "name", [], []⟩, []⟩ ⟨"name", .nonNull (.named "String"), []⟩ :=
      ⟨by rw [setSteps_cat]; simp, fieldOf?_name⟩
    exact ⟨_, _, _, _, _, _, .field .here hcat (by simp [catNames]), hlabel,
      values_catFrame key text ▸ List.mem_singleton_self _, rfl⟩
  · rw [(hall m definition h).1]
    decide
  · rw [(hall m definition h).2]
    exact ⟨by cbv, takesBoth_text s t⟩

/-- A cat with another label is a cat with its label altered. -/
theorem altered_catLabelled {key text s t : String} {may : Json.Change} (hkey : key ≠ "cat")
    (h : may [.key "cat", .key "label"] (.str s) (.str t)) :
    Json.Altered may
      (IsTakenAsWhole catSchema (catOperation key).selections (rootFrame catSchema "Query" (catLabelled key text))) []
      (catLabelled key s) (catLabelled key t) := by
  refine .entry (fun m definition hl => ?_) (.entry (fun m definition hl hinput => ?_) (.replaced h))
  · rcases looksAtPlace_cat hl with h | ⟨h, -⟩ | h | ⟨h, -⟩ <;> simp at h
  · rcases looksAtPlace_cat hl with h | ⟨-, htype⟩ | h | ⟨h, -⟩
    · simp [hkey.symm] at h
    · rw [htype] at hinput
      cases hinput
    · simp at h
    · simp at h

theorem compares_catOperation (key : String) :
    Compares catSchema [.operation (catOperation key)] none (catOperation key) "Query" :=
  ⟨⟨[.operation (catOperation key)], by cbv, by cbv⟩, by cbv⟩

theorem check_catLabelled_cat : check catSchema [.operation (catOperation "label")] (catLabelled "label" "Cat") none =
    .ok ⟨[(Mismatch.missing "name").message], false⟩ :=
  (compares_catOperation "label").check_eq [.missing "name"] [] (by cbv) (by cbv)

theorem check_catLabelled_tom : check catSchema [.operation (catOperation "label")] (catLabelled "label" "Tom") none =
    .ok ⟨[], false⟩ :=
  (compares_catOperation "label").check_eq [] [] (by cbv) (by cbv)

/-- **A text can be read as the name of a type.** The key for the type of the query holds for the cat, where it is that
of a name: whether the cat has to have a name depends on its label. -/
theorem label_names_type :
    ¬ ∀ (schema : Schema) (document : Document) (name : Option String) (fixture fixture' : Json),
      schema.IsWellFormed → GraphQL.validate schema document = .ok [] →
      (∀ operation root, Compares schema document name operation root →
        Json.Altered (fun path value value' => (∃ s t, value = .str s ∧ value' = .str t) ∧
            IsOrdinary schema operation.selections (rootFrame schema root fixture) path value value' ∧
            IsOrdinary schema operation.selections (rootFrame schema root fixture') path value value')
          (IsTakenAsWhole schema operation.selections (rootFrame schema root fixture)) [] fixture fixture') →
      check schema document fixture name = check schema document fixture' name := by
  intro hall
  have hvalid : GraphQL.validate catSchema [.operation (catOperation "label")] = .ok [] :=
    eq_ok_of_toOption (by decide +kernel)
  have hsame := hall catSchema _ none (catLabelled "label" "Cat") (catLabelled "label" "Tom")
    catSchema_isWellFormed hvalid fun operation root hc => by
      obtain ⟨rfl, rfl⟩ := hc.unique (compares_catOperation "label")
      exact altered_catLabelled (by decide) ⟨⟨"Cat", "Tom", rfl, rfl⟩, isOrdinary_label "label" "Cat" "Cat" "Tom",
        isOrdinary_label "label" "Tom" "Cat" "Tom"⟩
  rw [check_catLabelled_cat, check_catLabelled_tom] at hsame
  cases hsame

/-- Types are read under the key of the query alone. -/
theorem exists_of_readsTypeAt {key text : String} {path : Json.Path}
    (h : ReadsTypeAt catSchema (catOperation key).selections (rootFrame catSchema "Query" (catLabelled key text))
      path) :
    ∃ outer, path = outer ++ [.key key] := by
  obtain ⟨selections, frame, step, conditions, inner, key', v, hr, hm, hp, hkey, -, rfl⟩ := h
  have hinner : inner.typenameKey = some key := by
    rcases reaches_cat hr with ⟨rfl, rfl⟩ | ⟨rfl, rfl⟩
    · rw [setSteps_query] at hm
      simp only [List.mem_cons, List.not_mem_nil, or_false] at hm
      rcases hm with rfl | rfl | rfl <;> cases hp <;> rfl
    · rw [setSteps_cat] at hm
      simp only [List.mem_cons, List.not_mem_nil, or_false] at hm
      rcases hm with rfl | rfl | rfl <;> cases hp <;> rfl
  rw [hinner] at hkey
  cases hkey
  exact ⟨v.path, rfl⟩

theorem altered_kind (s t : String) {operation : Operation} {root : String}
    (hc : Compares catSchema [.operation (catOperation "kind")] none operation root) :
    Json.Altered (IsUnread catSchema operation.selections (rootFrame catSchema root (catLabelled "kind" s)))
      (IsTakenAsWhole catSchema operation.selections (rootFrame catSchema root (catLabelled "kind" s))) []
      (catLabelled "kind" s) (catLabelled "kind" t) := by
  obtain ⟨rfl, rfl⟩ := hc.unique (compares_catOperation "kind")
  refine altered_catLabelled (by decide) ⟨isOrdinary_label "kind" s s t, fun hread => ?_⟩
  obtain ⟨outer, hpath⟩ := exists_of_readsTypeAt hread
  have hcons : [Json.Step.key "cat"] ++ [.key "label"] = outer ++ [.key "kind"] := hpath
  have hlast := (List.append_inj' hcons rfl).2
  simp at hlast

/-- Where the query has another key for its type, a cat has to have a name, whatever is on its label. -/
theorem label_ignored :
    (∀ operation root, Compares catSchema [.operation (catOperation "kind")] none operation root →
      Json.Altered (IsUnread catSchema operation.selections (rootFrame catSchema root (catLabelled "kind" "Cat")))
        (IsTakenAsWhole catSchema operation.selections (rootFrame catSchema root (catLabelled "kind" "Cat"))) []
        (catLabelled "kind" "Cat") (catLabelled "kind" "Tom")) ∧
    check catSchema [.operation (catOperation "kind")] (catLabelled "kind" "Cat") none =
      .ok ⟨[(Mismatch.missing "name").message], false⟩ ∧
    check catSchema [.operation (catOperation "kind")] (catLabelled "kind" "Cat") none =
      check catSchema [.operation (catOperation "kind")] (catLabelled "kind" "Tom") none :=
  ⟨fun _ _ => altered_kind "Cat" "Tom",
    (compares_catOperation "kind").check_eq [.missing "name"] [] (by cbv) (by cbv),
    check_ignores_ordinary fun _ _ => altered_kind "Cat" "Tom"⟩

end FixtureCheck.Fixture
