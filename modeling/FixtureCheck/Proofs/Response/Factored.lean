import FixtureCheck.Proofs.Response.Split

/-!
# Runs of selections put into fragments

A fragment on the type of the set around it narrows nothing: inside it, a frame has the same types and fields, and the
same objects if none of them names a foreign type (`Frame.enter_own`). But the frame is under a type condition then, and
a fragment has its own key for type names and its own need for them. If these are what they were for the whole set
(`FactorsAlike`), the set finds the same with a run of selections in such a fragment (`keepsFindings_factorsAlike`), and
a document with runs put into fragments comes to the same verdict (`check_factored`). If they are not, it can come to
another one (`factoring_changes_verdict`).
-/

namespace FixtureCheck.Fixture

open GraphQL (Schema Document Field Selection Operation Fragment)
open Expectation

/-- **A run of selections, and a fragment in its place**: an inline fragment without a type condition, or a spread of a
fragment that is added to the document. -/
inductive Factors : Option Fragment → List Selection → List Selection → Prop where
  | inline {before run after : List Selection} (run_ne : run ≠ []) :
      Factors none (before ++ (run ++ after)) (before ++ .inline none [] run :: after)
  | spread {before after : List Selection} {f : Fragment} (run_ne : f.selections ≠ []) :
      Factors (some f) (before ++ (f.selections ++ after)) (before ++ .spread f.name [] :: after)

/-- **Is a run of selections read in a fragment as it is read outside?** The fragment has no type condition, or the type
of the set. The key for type names that was in force in the set is in force in the fragment, and around it, too, unless
there is nothing else and no key. The walk needs names of types in the set or in the fragment if it did in the set
before. And under a type condition, objects may have the types of the set for all that they tell around the fragment
and, if the set is under no type condition, to the scope. -/
structure FactoredAlike (schema : Schema) (key : Option String) (frame : Frame) (condition : Option String)
    (before run after : List Selection) : Prop where
  own : ∀ name ∈ condition, name = frame.type
  inside : (typenameKey? run).or (frame.inSet (before ++ .inline condition [] run :: after)).typenameKey =
    (frame.inSet (before ++ (run ++ after))).typenameKey
  outside : (frame.inSet (before ++ .inline condition [] run :: after)).typenameKey =
      (frame.inSet (before ++ (run ++ after))).typenameKey ∨
    before = [] ∧ after = [] ∧ (frame.inSet (before ++ .inline condition [] run :: after)).typenameKey = none
  ambiguous : lacksTypename schema frame (before ++ (run ++ after)) = true ↔
    lacksTypename schema frame (before ++ .inline condition [] run :: after) = true ∨
      lacksTypename schema frame run = true
  objects : condition ≠ none → ∀ v ∈ frame.values,
    MayBe v (frame.inSet (before ++ .inline condition [] run :: after)).typenameKey frame.possible ∧
      (frame.condition = none → MayBe v key frame.possible)

/-- **A run of selections put into a fragment where a walk meets it**, and read alike there. -/
inductive FactorsAlike (schema : Schema) (key : Option String) (frame : Frame) :
    List Selection → List Selection → Prop where
  | intro {before run after : List Selection} {condition : Option String} (run_ne : run ≠ [])
      (alike : FactoredAlike schema key frame condition before run after) :
      FactorsAlike schema key frame (before ++ (run ++ after)) (before ++ .inline condition [] run :: after)

/-! ## Frames under another type condition -/

/-- What can be seen of a step from outside. -/
def Step.seen (schema : Schema) (key : Option String) (objects : List Located) (s : Step) :
    Set Finding × Option String :=
  (s.found schema key objects, s.typenameKey?)

section

variable {schema : Schema} {key : Option String} {objects : List Located} {frame : Frame}

theorem foundBy_of_seen {steps steps' : List Step}
    (h : steps.map (Step.seen schema key objects) = steps'.map (Step.seen schema key objects)) :
    foundBy schema key objects steps = foundBy schema key objects steps' := by
  have hfound : ∀ steps : List Step, foundBy schema key objects steps =
      {x | ∃ seen ∈ steps.map (Step.seen schema key objects), x ∈ seen.1} := by
    intro steps
    simp [foundBy, Step.seen]
  rw [hfound, hfound, h]

theorem typenameKey?_of_seen {steps steps' : List Step}
    (h : steps.map (Step.seen schema key objects) = steps'.map (Step.seen schema key objects)) :
    steps.findSome? Step.typenameKey? = steps'.findSome? Step.typenameKey? := by
  have hkey : ∀ steps : List Step, steps.findSome? Step.typenameKey? =
      (steps.map (Step.seen schema key objects)).findSome? Prod.snd := by
    intro steps
    rw [List.findSome?_map]
    rfl
  rw [hkey, hkey, h]

/-- Entering a fragment on the type of a frame changes nothing but the type condition, if no object is left out. -/
theorem Frame.enter_own (hf : frame.IsKnown schema) {condition : Option String}
    (hown : ∀ name ∈ condition, name = frame.type)
    (hv : condition ≠ none → ∀ v ∈ frame.values, MayBe v frame.typenameKey frame.possible) :
    frame.enter schema condition = { frame with condition := condition.or frame.condition } := by
  cases condition with
  | none => rfl
  | some name =>
    obtain rfl := hown name rfl
    have hpossible : narrow schema frame.possible (some frame.type) = frame.possible := by
      apply NameSet.ext
      intro type
      rw [narrow, NameSet.mem_inter]
      exact and_iff_left_of_imp (hf.possible type)
    have hvalues : frame.values.filter (isReached frame.typenameKey frame.possible) = frame.values := by
      rw [List.filter_eq_self]
      intro v hmem
      exact isReached_iff.2 (hv (by simp) v hmem)
    simp only [Frame.enter, hpossible, hvalues, Option.some_or]

end

/-- A frame under another type condition. -/
def Frame.under (frame : Frame) (condition : Option String) : Frame := { frame with condition }

/-- **Does a scope expect the same of its objects under another type condition?** -/
def Frame.ExpectsAlike (frame : Frame) (key : Option String) (objects : List Located) (condition : Option String) :
    Prop :=
  ∀ v ∈ objects, (condition = none ∨ MayBe v key frame.possible) ↔
    (frame.condition = none ∨ MayBe v key frame.possible)

section

variable {schema : Schema} {key condition : Option String} {objects : List Located}

theorem Frame.inSet_under (frame : Frame) (condition : Option String) (selections : List Selection) :
    (frame.under condition).inSet selections = (frame.inSet selections).under condition := by
  rw [Frame.inSet_eq, Frame.inSet_eq]
  rfl

theorem Frame.ExpectsAlike.inSet {frame : Frame} (h : frame.ExpectsAlike key objects condition)
    (selections : List Selection) : (frame.inSet selections).ExpectsAlike key objects condition := by
  rw [Frame.inSet_eq]
  exact h

theorem lacksTypename_of_type {frame frame' : Frame} (h : frame.type = frame'.type) (selections : List Selection) :
    lacksTypename schema frame selections = lacksTypename schema frame' selections := by
  rw [lacksTypename, lacksTypename, h]

mutual

/-- **Another type condition around a set does not matter** where the scope expects the same under it. -/
theorem seen_setSteps {frame : Frame} {condition : Option String}
    (hc : frame.ExpectsAlike key objects condition) (conditions conditions' : List String) :
    ∀ selections : List Selection,
      (setSteps schema conditions selections (frame.under condition)).map (Step.seen schema key objects) =
        (setSteps schema conditions' selections frame).map (Step.seen schema key objects)
  | [] => by rw [setSteps, setSteps]
  | first :: rest => by
    have hlacks : lacksTypename schema (frame.under condition) (first :: rest) =
        lacksTypename schema frame (first :: rest) := lacksTypename_of_type rfl _
    rw [setSteps, setSteps, hlacks, Frame.inSet_under]
    split
    · rfl
    · simp only [List.map_cons, List.map_append]
      rw [seen_selectionSteps (hc.inSet _) conditions conditions' first,
        seen_selectionsSteps (hc.inSet _) conditions conditions' rest]
      rfl

/-- It does not matter to selections in a row. -/
theorem seen_selectionsSteps {frame : Frame} {condition : Option String}
    (hc : frame.ExpectsAlike key objects condition) (conditions conditions' : List String) :
    ∀ selections : List Selection,
      (selectionsSteps schema conditions selections (frame.under condition)).map (Step.seen schema key objects) =
        (selectionsSteps schema conditions' selections frame).map (Step.seen schema key objects)
  | [] => by rw [selectionsSteps, selectionsSteps]
  | first :: rest => by
    simp only [selectionsSteps, List.map_append]
    rw [seen_selectionSteps hc conditions conditions' first, seen_selectionsSteps hc conditions conditions' rest]

/-- It does not matter to a selection. -/
theorem seen_selectionSteps {frame : Frame} {condition : Option String}
    (hc : frame.ExpectsAlike key objects condition) (conditions conditions' : List String) : ∀ selection : Selection,
      (selectionSteps schema conditions selection (frame.under condition)).map (Step.seen schema key objects) =
        (selectionSteps schema conditions' selection frame).map (Step.seen schema key objects)
  | .field f selections => by
    have hexpected :
        {x | ∃ v ∈ objects, (condition = none ∨ MayBe v key frame.possible) ∧ x = Finding.expects v f.key} =
        {x | ∃ v ∈ objects, (frame.condition = none ∨ MayBe v key frame.possible) ∧ x = .expects v f.key} := by
      ext x
      exact exists_congr fun v => and_congr_right fun hv => and_congr_left fun _ => hc v hv
    simp only [selectionSteps, List.map_cons, List.map_nil, Step.seen, Step.found, ← hexpected]
    rfl
  | .spread name directives => by rw [selectionSteps, selectionSteps]
  | .inline inner directives selections => by
    rw [selectionSteps, selectionSteps]
    cases inner.filter fun name => (schema.type? name).isNone with
    | some name => rfl
    | none =>
      cases inner with
      | none => exact seen_setSteps hc _ _ selections
      | some name =>
        -- the fragment has a type condition of its own
        have hsame : (frame.enter schema (some name)).ExpectsAlike key objects (some name) := fun _ _ => .rfl
        exact seen_setSteps hsame _ _ selections

end

end

/-! ## Runs in fragments -/

section

variable {schema : Schema} {key condition : Option String} {frame : Frame} {before run after : List Selection}

namespace FactoredAlike

/-- The frame inside the fragment is the frame of the set, under another type condition. -/
theorem inSet_enter (h : FactoredAlike schema key frame condition before run after) (hf : frame.IsKnown schema) :
    ((frame.inSet (before ++ .inline condition [] run :: after)).enter schema condition).inSet run =
      (frame.inSet (before ++ (run ++ after))).under (condition.or frame.condition) := by
  have hkey := h.inside
  rw [Frame.typenameKey_inSet, Frame.typenameKey_inSet] at hkey
  have hobjects : condition ≠ none → ∀ v ∈ (frame.inSet (before ++ .inline condition [] run :: after)).values,
      MayBe v (frame.inSet (before ++ .inline condition [] run :: after)).typenameKey
        (frame.inSet (before ++ .inline condition [] run :: after)).possible := by
    intro hcondition v hv
    rw [Frame.values_inSet] at hv
    have hmay := (h.objects hcondition v hv).1
    rw [Frame.inSet_eq] at hmay ⊢
    exact hmay
  rw [Frame.enter_own hf.inSet (fun name hname => (h.own name hname).trans (type_withTypenameKey ..).symm) hobjects]
  simp only [Frame.inSet_eq, Frame.under, hkey]

/-- The steps inside the fragment look like those of the run outside of it. -/
theorem seen_run (h : FactoredAlike schema key frame condition before run after) (hf : frame.IsKnown schema)
    {objects : List Located} (hobjects : frame.condition = none → ∀ v ∈ objects, v ∈ frame.values)
    (conditions conditions' : List String) :
    (selectionsSteps schema conditions' run
      (((frame.inSet (before ++ .inline condition [] run :: after)).enter schema condition).inSet run)).map
        (Step.seen schema key objects) =
      (selectionsSteps schema conditions run (frame.inSet (before ++ (run ++ after)))).map
        (Step.seen schema key objects) := by
  rw [h.inSet_enter hf]
  refine seen_selectionsSteps (Frame.ExpectsAlike.inSet ?_ _) _ _ run
  intro v hv
  cases condition with
  | none => rfl
  | some name =>
    cases hc : frame.condition with
    | none =>
      have hmay := (h.objects (by simp) v (hobjects hc v hv)).2 hc
      exact iff_of_true (.inr hmay) (.inl rfl)
    | some outer => simp

/-- The walk goes through the fragment as through a set of its own. -/
theorem steps_inline (h : FactoredAlike schema key frame condition before run after) (hrun : run ≠ [])
    (hf : frame.IsKnown schema) (conditions : List String) :
    selectionSteps schema conditions (.inline condition [] run)
        (frame.inSet (before ++ .inline condition [] run :: after)) =
      if lacksTypename schema frame run then [.stop (.missingTypename frame.type)]
      else
        .set (conditions ++ condition.toList)
          (((frame.inSet (before ++ .inline condition [] run :: after)).enter schema condition).inSet run) run ::
        selectionsSteps schema (conditions ++ condition.toList) run
          (((frame.inSet (before ++ .inline condition [] run :: after)).enter schema condition).inSet run) := by
  have hknown : (condition.filter fun name => (schema.type? name).isNone) = none := by
    rw [Option.filter_eq_none_iff]
    intro name hname
    rw [h.own name hname]
    simpa using Option.isSome_iff_ne_none.1 hf.known
  have htype :
      ((frame.inSet (before ++ .inline condition [] run :: after)).enter schema condition).type = frame.type := by
    rw [type_enter]
    cases condition with
    | none => exact type_withTypenameKey ..
    | some name => exact h.own name rfl
  rw [selectionSteps, hknown]
  simp only [setSteps_of_ne_nil _ hrun, lacksTypename_of_type htype, htype]

/-- **The set finds the same with the run in the fragment.** -/
theorem findsSame (h : FactoredAlike schema key frame condition before run after) (hrun : run ≠ [])
    (hf : frame.IsKnown schema) {objects : List Located}
    (hobjects : frame.condition = none → ∀ v ∈ objects, v ∈ frame.values) :
    FindsSame schema key objects frame (before ++ (run ++ after)) (before ++ .inline condition [] run :: after) := by
  have hne : before ++ (run ++ after) ≠ [] := by simp [hrun]
  have hne' : before ++ .inline condition [] run :: after ≠ [] := by simp
  by_cases hl : lacksTypename schema frame (before ++ (run ++ after)) = true
  · -- both walks are cut off
    have hcut : ∀ conditions, .cutOff ∈ foundBy schema key objects
        (setSteps schema conditions (before ++ (run ++ after)) frame) := by
      intro conditions
      rw [setSteps_of_ne_nil conditions hne, if_pos hl, foundBy_cons]
      exact .inl (Set.mem_univ _)
    have hcut' : ∀ conditions, .cutOff ∈ foundBy schema key objects
        (setSteps schema conditions (before ++ .inline condition [] run :: after) frame) := by
      intro conditions
      rw [setSteps_of_ne_nil conditions hne']
      split
      · rw [foundBy_cons]
        exact .inl (Set.mem_univ _)
      · rename_i hno
        have hlrun := (h.ambiguous.1 hl).resolve_left hno
        rw [selectionsSteps_append, selectionsSteps, h.steps_inline hrun hf, if_pos hlrun]
        simp
    refine ⟨iff_of_false hne hne', fun conditions => ?_, fun conditions hno => absurd (hcut conditions) hno⟩
    rw [foundBy_eq_univ (hcut conditions), foundBy_eq_univ (hcut' conditions)]
  · have hl' := mt h.ambiguous.2 hl
    rw [not_or] at hl'
    refine ⟨iff_of_false hne hne', fun conditions => ?_, fun conditions _ => ?_⟩
    · have hsame := foundBy_of_seen (h.seen_run hf hobjects conditions (conditions ++ condition.toList))
      rw [setSteps_of_ne_nil conditions hne, setSteps_of_ne_nil conditions hne', if_neg hl, if_neg hl'.1,
        selectionsSteps_append, selectionsSteps_append, selectionsSteps_append, selectionsSteps,
        h.steps_inline hrun hf, if_neg hl'.2]
      simp only [foundBy_cons, foundBy_append, found_set, Set.empty_union, hsame]
      rcases h.outside with houtside | ⟨rfl, rfl, -⟩
      · rw [inSet_congr houtside]
      · simp only [selectionsSteps]
    · have hsame := typenameKey?_of_seen (h.seen_run hf hobjects conditions (conditions ++ condition.toList))
      have hinner : (((frame.inSet (before ++ .inline condition [] run :: after)).enter schema condition).inSet
          run).typenameKey = (frame.inSet (before ++ (run ++ after))).typenameKey := by
        rw [h.inSet_enter hf]
        rfl
      rw [setSteps_of_ne_nil conditions hne, setSteps_of_ne_nil conditions hne', if_neg hl, if_neg hl'.1,
        selectionsSteps_append, selectionsSteps_append, selectionsSteps_append, selectionsSteps,
        h.steps_inline hrun hf, if_neg hl'.2]
      simp only [List.findSome?_cons, List.findSome?_append, Step.typenameKey?, hsame, hinner]
      rcases h.outside with houtside | ⟨rfl, rfl, hnone⟩
      · rw [inSet_congr houtside]
        cases (frame.inSet (before ++ (run ++ after))).typenameKey <;> rfl
      · rw [hnone]
        simp only [selectionsSteps, List.findSome?_nil, Option.or_none, Option.none_or]

end FactoredAlike

/-- **A set with a run put into a fragment and read alike there finds the same.** -/
theorem keepsFindings_factorsAlike (schema : Schema) : KeepsFindings schema (FactorsAlike schema) := by
  rintro key frame _ _ ⟨hrun, halike⟩ hf objects hobjects
  exact halike.findsSame hrun hf hobjects

end

/-! ## Checks -/

/-- What is put into a fragment is spread as before, but for the fragment itself. -/
theorem isOutlined_factors {document : Document} {added : Option Fragment}
    (hnew : ∀ f ∈ added, f.name ∉ GraphQL.fragmentNames document)
    (hknown : ∀ f ∈ added, ∀ name ∈ GraphQL.spreadNames f.selections, GraphQL.IsFragment document name) :
    GraphQL.IsOutlined (Factors added) added document where
  new := hnew
  known := hknown
  less := by
    rintro _ _ (⟨-⟩ | ⟨-⟩) name hname
    · rename_i before run after
      have hinline : name ∈ GraphQL.spreadsAt (.inline none [] run) ↔ name ∈ GraphQL.spreadNames run := .rfl
      rw [GraphQL.mem_spreadNames_append, GraphQL.mem_spreadNames_cons, hinline] at hname
      rw [GraphQL.mem_spreadNames_append, GraphQL.mem_spreadNames_append]
      exact .inl hname
    · rename_i before after f
      have hspread : name ∈ GraphQL.spreadsAt (.spread f.name []) ↔ name = f.name := List.mem_singleton
      rw [GraphQL.mem_spreadNames_append, GraphQL.mem_spreadNames_cons, hspread] at hname
      simp only [GraphQL.mem_spreadNames_append]
      rcases hname with hname | rfl | hname
      · exact .inl (.inl hname)
      · exact .inr ⟨f, rfl, rfl, fun inner hinner => .inr (.inl hinner)⟩
      · exact .inl (.inr (.inr hname))

/-- **Putting runs of selections into a fragment keeps the verdict** where they are read alike in it. -/
theorem check_factored {schema : Schema} (hw : schema.IsWellFormed) {document document' : Document}
    (hv : GraphQL.validate schema document = .ok []) {added : Option Fragment}
    (hnew : ∀ f ∈ added, f.name ∉ GraphQL.fragmentNames document)
    (hknown : ∀ f ∈ added, ∀ name ∈ GraphQL.spreadNames f.selections, GraphQL.IsFragment document name)
    (h : GraphQL.DocumentRewritten (Factors added) added document document') (fixture : Json) (name : Option String)
    (hs : ∀ o o' root, Compares schema document name o root → Compares schema document' name o' root →
      ReplacedIn schema (FactorsAlike schema) (namingKey schema o.selections (startFrame schema root fixture))
        (startFrame schema root fixture) o.selections o'.selections) :
    IsOneVerdict (check schema document fixture name) (check schema document' fixture name) :=
  check_replaced hw (GraphQL.accepts_of_validate hv) (isOutlined_factors hnew hknown) h
    (keepsFindings_factorsAlike schema) name hs

/-! ### What cats have -/

/-- A fragment with what cats have. -/
def namesOfCats : Fragment := ⟨none, "NamesOfCats", "Pet", [], [ofCats]⟩

/-- The types of pets, what dogs have, and what cats have in a fragment. -/
def spreading : Operation :=
  petOperation [plain "pets" [plain "__typename" [], .spread "NamesOfCats" [], ofDogs]]

/-- The same, with an inline fragment. -/
def inlining : Operation :=
  petOperation [plain "pets" [plain "__typename" [], .inline (some "Pet") [] [ofCats], ofDogs]]

theorem compares_typesWithin : Compares petSchema [.operation typesWithin] none typesWithin "Query" :=
  ⟨⟨[.operation typesWithin], by cbv, by cbv⟩, by cbv⟩

theorem compares_spreading : Compares petSchema [.operation spreading, .fragment namesOfCats] none inlining "Query" :=
  ⟨⟨[.operation inlining], by cbv, by cbv⟩, by cbv⟩

theorem rewritten_spreading : GraphQL.DocumentRewritten (Factors (some namesOfCats)) (some namesOfCats)
    [.operation typesWithin] [.operation spreading, .fragment namesOfCats] :=
  ⟨[.operation spreading],
    .cons (.operation (@GraphQL.Rewritten.field _ [] [] _ _ _
      (.set (@Factors.spread [plain "__typename" []] [ofDogs] namesOfCats (by simp [namesOfCats]))))) .nil, rfl⟩

/-- The frame of the pets in a query for them. -/
def petsFrame (selections : List Selection) : Frame :=
  ((startFrame petSchema "Query" halfTold).inSet [plain "pets" selections]).below petSchema "pets"
    ⟨"pets", .list (.named "Pet"), []⟩

theorem namingKey_typesWithin (frame : Frame) :
    namingKey petSchema [plain "__typename" [], ofCats, ofDogs] frame = some "__typename" := by
  have hlacks : ¬ lacksTypename petSchema frame [plain "__typename" [], ofCats, ofDogs] = true := by
    simp [lacksTypename, typenameKey?, plain]
  rw [namingKey, setSteps_of_ne_nil [] (by simp), if_neg hlacks, List.findSome?_cons, Step.typenameKey?,
    Frame.typenameKey_inSet]
  rfl

/-- Cats are read alike in the fragment: pets name their types outside of it. -/
theorem factoredAlike_cats : FactoredAlike petSchema (some "__typename")
    (petsFrame [plain "__typename" [], ofCats, ofDogs]) (some "Pet") [plain "__typename" []] [ofCats] [ofDogs] where
  own := by
    intro name hname
    rw [← Option.some.inj hname]
    rfl
  inside := by
    rw [Frame.typenameKey_inSet, Frame.typenameKey_inSet]
    rfl
  outside := by
    rw [Frame.typenameKey_inSet, Frame.typenameKey_inSet]
    exact .inl rfl
  ambiguous := by simp [lacksTypename, typenameKey?, inlineFragments, plain, ofCats]
  objects := by
    intro _ v hv
    have hall : (petsFrame [plain "__typename" [], ofCats, ofDogs]).values.all
        (Frame.isReached (some "__typename") (petsFrame [plain "__typename" [], ofCats, ofDogs]).possible) = true := by
      cbv
    have hmay := isReached_iff.1 (List.all_eq_true.1 hall v hv)
    rw [Frame.typenameKey_inSet]
    exact ⟨hmay, fun _ => hmay⟩

theorem check_typesWithin_halfTold : check petSchema [.operation typesWithin] halfTold none =
    .ok ⟨[(Mismatch.missing "name").message, (Mismatch.missing "friend").message], false⟩ :=
  compares_typesWithin.check_eq [.missing "name", .missing "friend"] [] (by cbv) (by cbv)

/-- A cat without a name and a dog that does not tell its friend are missed with a fragment for cats and without it. -/
theorem halfTold_factored :
    check petSchema [.operation typesWithin] halfTold none =
      .ok ⟨[(Mismatch.missing "name").message, (Mismatch.missing "friend").message], false⟩ ∧
    IsOneVerdict (check petSchema [.operation typesWithin] halfTold none)
      (check petSchema [.operation spreading, .fragment namesOfCats] halfTold none) := by
  have hnew : ∀ f ∈ some namesOfCats, f.name ∉ GraphQL.fragmentNames [.operation typesWithin] := by
    intro f _ hmem
    cases hmem
  have hknown : ∀ f ∈ some namesOfCats, ∀ name ∈ GraphQL.spreadNames f.selections,
      GraphQL.IsFragment [.operation typesWithin] name := by
    intro f hf name hname
    rw [← Option.some.inj hf] at hname
    cases hname
  refine ⟨check_typesWithin_halfTold, check_factored petSchema_isWellFormed validate_typesWithin hnew hknown
    rewritten_spreading halfTold none fun o o' root hc hc' => ?_⟩
  obtain ⟨rfl, rfl⟩ := hc.unique compares_typesWithin
  obtain ⟨rfl, -⟩ := hc'.unique compares_spreading
  have hpets : petSchema.fieldOf? (some "Query") "pets" = some ⟨"pets", .list (.named "Pet"), []⟩ := by cbv
  have halike := factoredAlike_cats
  rw [← namingKey_typesWithin (petsFrame [plain "__typename" [], ofCats, ofDogs])] at halike
  exact @ReplacedIn.field _ _ _ _ [] [] _ _ _ _ hpets (.set (.intro (by simp) halike))

/-- The types of pets in a fragment, and what cats and dogs have. -/
def typesInside : Operation :=
  petOperation [plain "pets" [.inline none [] [plain "__typename" []], ofCats, ofDogs]]

/-- **A run of selections in a fragment can come to another verdict** if it is not read alike there: where the fragment
asks for types, the set around it does not any more. -/
theorem factoring_changes_verdict :
    ¬ ∀ (schema : Schema) (document document' : Document) (added : Option Fragment) (fixture : Json)
      (name : Option String) (result result' : CheckResult), schema.IsWellFormed →
      GraphQL.validate schema document = .ok [] → (∀ f ∈ added, f.name ∉ GraphQL.fragmentNames document) →
      GraphQL.DocumentRewritten (Factors added) added document document' →
      check schema document fixture name = .ok result → check schema document' fixture name = .ok result' →
      result.aborted = result'.aborted ∧ (result.errors = [] ↔ result'.errors = []) := by
  intro hall
  have hrewritten : GraphQL.DocumentRewritten (Factors none) none [.operation typesWithin] [.operation typesInside] :=
    ⟨[.operation typesInside], .cons (.operation (@GraphQL.Rewritten.field _ [] [] _ _ _
      (.set (@Factors.inline [] [plain "__typename" []] [ofCats, ofDogs] (by simp))))) .nil, rfl⟩
  have hinside : Compares petSchema [.operation typesInside] none typesInside "Query" :=
    ⟨⟨[.operation typesInside], by cbv, by cbv⟩, by cbv⟩
  have hcut : (walkOperation petSchema "Query" typesInside pets).outcome = .error (.missingTypename "Pet") := by cbv
  obtain ⟨haborted, -⟩ := hall petSchema _ _ none pets none _ _ petSchema_isWellFormed validate_typesWithin (by simp)
    hrewritten check_typesWithin_pets (check_eq_ok_iff.2 ⟨typesInside, "Query", hinside, rfl⟩)
  rw [(ofWalk_error hcut).1] at haborted
  cases haborted

end FixtureCheck.Fixture
