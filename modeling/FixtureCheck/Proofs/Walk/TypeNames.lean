import FixtureCheck.Proofs.Walk.Verdict

/-!
# Types that objects name

Where a selection set asks for `__typename`, a check that finds nothing wrong has seen a text under its key in each
object (`accepted_object_names_type`). The text need not be the name of a type that the object can have: nothing
compares it with the schema (`accepted_object_names_no_type`). An object with another text belongs to no fragment of the
set, and has only keys that are selected for it nevertheless.
-/

namespace FixtureCheck.Fixture

open GraphQL (Schema Document Field Selection Operation)

variable {schema : Schema}

/-! ## Steps in a set -/

mutual

/-- **A walk that enters a set has the key of the set, and goes through the selections in it.** -/
theorem steps_of_set_mem {outer conditions : List String} {narrowed : Frame} {inner : List Selection}
    {selections : List Selection} {frame : Frame}
    (h : Step.set conditions narrowed inner ∈ setSteps schema outer selections frame) :
    (∀ key, typenameKey? inner = some key → narrowed.typenameKey = some key) ∧
      ∀ step ∈ selectionsSteps schema conditions inner narrowed, step ∈ setSteps schema outer selections frame :=
  match selections with
  | [] => by simp [setSteps] at h
  | first :: rest => by
    rw [setSteps] at h ⊢
    split at h
    · simp at h
    · rename_i hl
      rw [if_neg hl]
      simp only [List.mem_cons, List.mem_append] at h ⊢
      rcases h with h | h | h
      · cases h
        refine ⟨fun key hk => ?_, fun step hs => ?_⟩
        · rw [Frame.typenameKey_inSet, hk]
          rfl
        · rw [selectionsSteps, List.mem_append] at hs
          exact .inr hs
      · obtain ⟨hkey, hsteps⟩ := steps_of_set_mem_selection h
        exact ⟨hkey, fun step hs => .inr (.inl (hsteps step hs))⟩
      · obtain ⟨hkey, hsteps⟩ := steps_of_set_mem_selections h
        exact ⟨hkey, fun step hs => .inr (.inr (hsteps step hs))⟩

theorem steps_of_set_mem_selections {outer conditions : List String} {narrowed : Frame} {inner : List Selection}
    {selections : List Selection} {frame : Frame}
    (h : Step.set conditions narrowed inner ∈ selectionsSteps schema outer selections frame) :
    (∀ key, typenameKey? inner = some key → narrowed.typenameKey = some key) ∧
      ∀ step ∈ selectionsSteps schema conditions inner narrowed, step ∈ selectionsSteps schema outer selections frame :=
  match selections with
  | [] => by simp [selectionsSteps] at h
  | first :: rest => by
    rw [selectionsSteps, List.mem_append] at h
    rw [selectionsSteps]
    rcases h with h | h
    · obtain ⟨hkey, hsteps⟩ := steps_of_set_mem_selection h
      exact ⟨hkey, fun step hs => List.mem_append_left _ (hsteps step hs)⟩
    · obtain ⟨hkey, hsteps⟩ := steps_of_set_mem_selections h
      exact ⟨hkey, fun step hs => List.mem_append_right _ (hsteps step hs)⟩

theorem steps_of_set_mem_selection {outer conditions : List String} {narrowed : Frame} {inner : List Selection}
    {selection : Selection} {frame : Frame}
    (h : Step.set conditions narrowed inner ∈ selectionSteps schema outer selection frame) :
    (∀ key, typenameKey? inner = some key → narrowed.typenameKey = some key) ∧
      ∀ step ∈ selectionsSteps schema conditions inner narrowed, step ∈ selectionSteps schema outer selection frame :=
  match selection with
  | .field f selections => by simp [selectionSteps] at h
  | .spread .. => by simp [selectionSteps] at h
  | .inline condition _ selections => by
    rw [selectionSteps] at h ⊢
    split at h
    · simp at h
    · exact steps_of_set_mem h

end

/-- A walk looks at the fields that stand directly in the selections that it goes through. -/
theorem field_mem_selectionsSteps {conditions : List String} {frame : Frame} {f : Field} {sub : List Selection} :
    ∀ {selections : List Selection}, .field f sub ∈ selections →
      Step.field conditions frame f sub ∈ selectionsSteps schema conditions selections frame
  | first :: rest, h => by
    rw [selectionsSteps, List.mem_append]
    rcases List.mem_cons.1 h with rfl | h
    · rw [selectionSteps]
      exact .inl (List.mem_singleton_self _)
    · exact .inr (field_mem_selectionsSteps h)

/-- The key of a set is that of a field in it that asks for type names. -/
theorem exists_of_typenameKey? {selections : List Selection} {key : String} (h : typenameKey? selections = some key) :
    ∃ f sub, .field f sub ∈ selections ∧ f.name = "__typename" ∧ f.key = key := by
  unfold typenameKey? at h
  obtain ⟨selection, hs, h⟩ := List.exists_of_findSome?_eq_some h
  cases selection with
  | field f sub =>
    simp only [Option.ite_none_right_eq_some, beq_iff_eq, Option.some.injEq] at h
    exact ⟨f, sub, hs, h⟩
  | spread name directives => cases h
  | inline condition directives inner => cases h

/-! ## Texts under the key -/

/-- Only texts fit the type of type names. -/
theorem exists_str_of_fits (hw : schema.IsWellFormed) {value : Json}
    (h : Fits schema GraphQL.Schema.typenameField.type value) : ∃ text, value = .str text := by
  have hinput : schema.isInputType GraphQL.Schema.typenameField.type = true :=
    GraphQL.Schema.typeIs_iff.2 ⟨.scalar, hw.text, rfl⟩
  rw [Fits, if_pos hinput] at h
  cases value with
  | str text => exact ⟨text, rfl⟩
  | null | bool b | int n | float x | arr items | obj entries =>
    simp [GraphQL.misfits, GraphQL.Schema.typenameField, GraphQL.misfitsAt, GraphQL.isNullValue, GraphQL.leafCause?,
      GraphQL.scalarCause?, hw.text] at h

theorem fieldOf?_typename (parent : Option String) :
    schema.fieldOf? parent "__typename" = some GraphQL.Schema.typenameField := by
  simp [GraphQL.Schema.fieldOf?]

/-- A key that is not empty is looked up. -/
theorem typename?_of_ne {value : Json} {key : String} (h : key ≠ "") :
    typename? value (some key) = (match value.field? key with
      | some (.str "") => none
      | some (.str name) => some name
      | _ => none) := by
  unfold typename?
  split
  · rename_i heq; cases heq
  · rename_i heq; cases heq; exact absurd rfl h
  · rename_i heq; cases heq; rfl

/-- The type that an object names is a text under the key; neither is empty. -/
theorem typename?_eq_some_iff {value : Json} {key name : String} :
    typename? value (some key) = some name ↔ key ≠ "" ∧ name ≠ "" ∧ value.field? key = some (.str name) := by
  by_cases hkey : key = ""
  · subst hkey
    simp [typename?]
  · simp only [typename?_of_ne hkey, ne_eq, hkey, not_false_eq_true, true_and]
    cases hv : value.field? key with
    | none => simp
    | some inner =>
      cases inner with
      | str text =>
        by_cases ht : text = ""
        · subst ht
          simp [eq_comm]
        · simp
          rintro rfl
          exact ht
      | null | bool b | int n | float x | arr items | obj entries => simp

/-- A field is expected of an object that lacks the key for type names. -/
theorem expects_of_missing {narrowed : Frame} {key : String} {v : Located} (hkey : narrowed.typenameKey = some key)
    (hne : key ≠ "") (hv : v.value.field? key = none) : narrowed.expects v = true := by
  have hreached : Frame.isReached (some key) narrowed.possible v = true := by
    rw [isReached_iff]
    intro name hname
    rw [(typename?_eq_some_iff.1 hname).2.2] at hv
    cases hv
  unfold Frame.expects
  split
  · rename_i hnone
    rw [hkey] at hnone
    cases hnone
  · rename_i hempty
    rw [hkey] at hempty
    exact absurd (Option.some.inj hempty) hne
  · rw [hkey]
    exact hreached

/-- **An object that answers `__typename` has a text under the key.** -/
theorem exists_str_of_answered (hw : schema.IsWellFormed) {narrowed : Frame} {m : Met} {v : Located}
    (hkey : narrowed.typenameKey = some m.field.key) (hne : m.field.key ≠ "")
    (ha : Answered schema narrowed m GraphQL.Schema.typenameField v) :
    ∃ text, v.value.field? m.field.key = some (.str text) := by
  rcases ha with ⟨w, hv, hfits⟩ | ⟨hv, hexpects⟩
  · obtain ⟨inner, hi, rfl⟩ := Option.map_eq_some_iff.1 hv
    obtain ⟨text, rfl⟩ := exists_str_of_fits hw hfits
    exact ⟨text, hi⟩
  · have hmissing : v.value.field? m.field.key = none := Option.map_eq_none_iff.1 hv
    rw [expects_of_missing hkey hne hmissing] at hexpects
    cases hexpects

/-! ## Checks that find nothing wrong -/

/-- Does a walk through a set in a frame enter a set that asks an object for its type under a key? -/
def AsksType (schema : Schema) (selections : List Selection) (frame narrowed : Frame) (key : String) (v : Located) :
    Prop :=
  ∃ conditions inner, Step.set conditions narrowed inner ∈ setSteps schema [] selections frame ∧
    typenameKey? inner = some key ∧ v ∈ narrowed.values

/-- An object that names a type outside those of the field reaches no fragment in a set. -/
theorem not_mem_enter {declared : String} {objects : List Located} {conditions : List String} {narrowed : Frame}
    {key text : String} {v : Located} (hat : narrowed.IsAt schema declared objects conditions)
    (hkey : narrowed.typenameKey = some key) (ht : typename? v.value (some key) = some text)
    (hno : text ∉ schema.possibleTypes declared) (condition : String) :
    v ∉ (narrowed.enter schema (some condition)).values := by
  intro hv
  have hreached := (List.mem_filter.1 hv).2
  rw [hkey, isReached_iff] at hreached
  have hmem : text ∈ narrow schema narrowed.possible (some condition) := hreached text ht
  rw [narrow, NameSet.mem_inter, hat.possible, mem_narrowAll] at hmem
  exact hno hmem.1.1

/-- **Accepted objects have texts for type names**, and those with texts that name none of the types of the field belong
to no fragment: each of their keys is selected for them nevertheless. -/
theorem accepted_object_names_type {document : Document} {name : Option String} {fixture : Json} {result : CheckResult}
    (hw : schema.IsWellFormed) (h : GraphQL.validate schema document = .ok [])
    (hc : check schema document fixture name = .ok result) (he : result.errors = []) :
    ∃ operation root, Compares schema document name operation root ∧
      ∀ selections frame, Reaches schema operation.selections (rootFrame schema root fixture) selections frame →
        ∀ narrowed key v, key ≠ "" → AsksType schema selections frame narrowed key v →
          ∃ text, v.value.field? key = some (.str text) ∧
            (text ∈ schema.possibleTypes frame.type ∨ text = "" ∨
              (∀ condition, v ∉ (narrowed.enter schema (some condition)).values) ∧
                ∀ k ∈ v.keys, SelectedFor schema operation.selections (rootFrame schema root fixture) v k) := by
  have ha := GraphQL.accepts_of_validate h
  obtain ⟨operation, root, hcompares, rfl⟩ := check_eq_ok_iff.1 hc
  obtain ⟨tree, ht, hwalk, hextra⟩ := errors_ofWalk_eq_nil.1 he
  have hk : kindOf fixture = .object := by
    by_contra hk
    exact errors_walkOperation_ne_nil hk hwalk
  have hwalked := hcompares.walked ha hw hk ht
  refine ⟨operation, root, hcompares, fun selections frame hr narrowed key v hne hasks => ?_⟩
  obtain ⟨conditions, inner, hset, htypename, hv⟩ := hasks
  obtain ⟨f, sub, hf, hname, rfl⟩ := exists_of_typenameKey? htypename
  obtain ⟨hkeys, hsteps⟩ := steps_of_set_mem hset
  have hkey := hkeys _ htypename
  -- the walk looks at the field that gives the set its key
  have hlooks : LooksAt schema selections frame narrowed ⟨conditions, f, sub⟩ GraphQL.Schema.typenameField :=
    ⟨hsteps _ (field_mem_selectionsSteps hf), by rw [hname]; exact fieldOf?_typename _⟩
  have hanswered := (errors_walkOperation_eq_nil hw hk ht).1 hwalk selections frame hr _ _ _ hlooks v hv
  obtain ⟨text, htext⟩ := exists_str_of_answered hw hkey hne hanswered
  refine ⟨text, htext, ?_⟩
  by_cases hmem : text ∈ schema.possibleTypes frame.type
  · exact .inl hmem
  by_cases hempty : text = ""
  · exact .inr (.inl hempty)
  obtain ⟨scope, -, hscope⟩ := hwalked.of_reaches hw hr
  have hat := hscope.isAt_narrowed hlooks
  have htype := typename?_eq_some_iff.2 ⟨hne, hempty, htext⟩
  refine .inr (.inr ⟨not_mem_enter hat hkey htype hmem, fun k hk => ?_⟩)
  have hin : v ∈ frame.values := hat.values.subset hv
  exact (hwalked.extraFields_eq_nil hw).1 hextra selections frame hr v hin k hk

/-! ## A stray -/

/-- The kinds of pets, and the names of cats. -/
def petKinds : List Selection := [plain "__typename" [], .inline (some "Cat") [] [plain "name" []]]

/-- A query for the kinds of pets. -/
def kindOperation : Operation := ⟨none, .query, none, [], [], [plain "pets" petKinds]⟩

theorem validate_kindOperation : GraphQL.validate petSchema [.operation kindOperation] = .ok [] :=
  eq_ok_of_toOption (by decide +kernel)

theorem compares_kindOperation : Compares petSchema [.operation kindOperation] none kindOperation "Query" :=
  ⟨⟨[.operation kindOperation], by cbv, by cbv⟩, by cbv⟩

/-- A fox is no pet. -/
def fox : Located := ⟨[.key "pets", .index 0], .obj [("__typename", .str "Fox")]⟩

/-- Pets, with a fox among them. -/
def strays : Json := .obj [("pets", .arr [.obj [("__typename", .str "Fox")]])]

theorem check_strays : check petSchema [.operation kindOperation] strays none = .ok ⟨[], false⟩ := by cbv

/-- The frame of the pets. -/
def strayFrame : Frame :=
  (rootFrame petSchema "Query" strays).below petSchema "pets" ⟨"pets", .list (.named "Pet"), []⟩

theorem reaches_strayFrame :
    Reaches petSchema kindOperation.selections (rootFrame petSchema "Query" strays) petKinds strayFrame := by
  have hstep : (setSteps petSchema [] kindOperation.selections (rootFrame petSchema "Query" strays))[1]? =
      some (.field [] (rootFrame petSchema "Query" strays) ⟨none, "pets", [], []⟩ petKinds) := by cbv
  have hlooks : LooksAt petSchema kindOperation.selections (rootFrame petSchema "Query" strays)
      (rootFrame petSchema "Query" strays) ⟨[], ⟨none, "pets", [], []⟩, petKinds⟩ ⟨"pets", .list (.named "Pet"), []⟩ :=
    ⟨List.mem_of_getElem? hstep, by cbv⟩
  exact .field .here hlooks (by simp [petKinds])

theorem asksType_fox :
    AsksType petSchema petKinds strayFrame (strayFrame.withTypenameKey (some "__typename")) "__typename" fox := by
  have hstep : (setSteps petSchema [] petKinds strayFrame)[0]? =
      some (.set [] (strayFrame.withTypenameKey (some "__typename")) petKinds) := by cbv
  have hvalues : (strayFrame.withTypenameKey (some "__typename")).values = [fox] := by cbv
  exact ⟨[], petKinds, List.mem_of_getElem? hstep, by cbv, hvalues ▸ List.mem_singleton_self fox⟩

/-- **Accepted objects need not name types that they can have.** -/
theorem accepted_object_names_no_type :
    ¬ ∀ (schema : Schema) (document : Document) (name : Option String) (fixture : Json) (result : CheckResult),
      schema.IsWellFormed → GraphQL.validate schema document = .ok [] →
      check schema document fixture name = .ok result → result.errors = [] →
      ∃ operation root, Compares schema document name operation root ∧
        ∀ selections frame, Reaches schema operation.selections (rootFrame schema root fixture) selections frame →
          ∀ narrowed key v, key ≠ "" → AsksType schema selections frame narrowed key v →
            ∃ type ∈ schema.possibleTypes frame.type, v.value.field? key = some (.str type) := by
  intro hall
  obtain ⟨operation, root, hc, hall⟩ :=
    hall petSchema _ none strays _ petSchema_isWellFormed validate_kindOperation check_strays rfl
  obtain ⟨rfl, rfl⟩ := hc.unique compares_kindOperation
  obtain ⟨type, htype, hfox⟩ := hall _ _ reaches_strayFrame _ _ _ (by decide) asksType_fox
  have hname : fox.value.field? "__typename" = some (.str "Fox") := by cbv
  rw [hname] at hfox
  cases hfox
  have hpet : ¬ "Fox" ∈ petSchema.possibleTypes "Pet" := by decide +kernel
  exact hpet htype

/-- The key of the fox is selected for all pets. -/
theorem fox_belongs_to_no_fragment : petSchema.IsWellFormed ∧
    GraphQL.validate petSchema [.operation kindOperation] = .ok [] ∧
    check petSchema [.operation kindOperation] strays none = .ok ⟨[], false⟩ ∧ "__typename" ≠ "" ∧
    Reaches petSchema kindOperation.selections (rootFrame petSchema "Query" strays) petKinds strayFrame ∧
    AsksType petSchema petKinds strayFrame (strayFrame.withTypenameKey (some "__typename")) "__typename" fox ∧
    fox.value.field? "__typename" = some (.str "Fox") ∧
    ∀ k ∈ fox.keys, SelectedFor petSchema kindOperation.selections (rootFrame petSchema "Query" strays) fox k := by
  obtain ⟨operation, root, hc, hall⟩ :=
    accepted_object_names_type petSchema_isWellFormed validate_kindOperation check_strays rfl
  obtain ⟨rfl, rfl⟩ := hc.unique compares_kindOperation
  obtain ⟨text, htext, hcase⟩ := hall _ _ reaches_strayFrame _ _ _ (by decide) asksType_fox
  have hname : fox.value.field? "__typename" = some (.str "Fox") := by cbv
  rw [hname] at htext
  cases htext
  have hpet : ¬ "Fox" ∈ petSchema.possibleTypes strayFrame.type := by decide +kernel
  obtain ⟨-, hkeys⟩ := (hcase.resolve_left hpet).resolve_left (by decide)
  exact ⟨petSchema_isWellFormed, validate_kindOperation, check_strays, by decide, reaches_strayFrame, asksType_fox,
    hname, hkeys⟩

end FixtureCheck.Fixture
