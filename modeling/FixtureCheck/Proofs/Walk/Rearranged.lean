import FixtureCheck.Proofs.Json.Rearranged
import FixtureCheck.Proofs.Walk.Ordinary

/-!
# Objects with their entries in another order

A fixture may be rearranged, but for the values that are leaves of a query (`HoldsLeaf`). A check reads objects by their
keys, so the walk finds the same in both (`hasCounterparts_of_rearranged`). It leaves the same keys of each object over,
in the order in which the object has them (`check_rearranged`).
-/

namespace FixtureCheck

open GraphQL (Schema Document Selection Operation)

namespace Json.Rearranged

variable {fixed : Json.Path → Prop} {path : Json.Path} {value value' : Json}

theorem kindOf_eq (h : Rearranged fixed path value value') : Fixture.kindOf value = Fixture.kindOf value' := by
  cases h <;> rfl

/-- Objects name the same types, whatever their order. -/
theorem typename?_eq (h : Rearranged fixed path value value') (key : Option String) :
    Fixture.typename? value key = Fixture.typename? value' key := by
  cases key with
  | none => rfl
  | some key =>
    by_cases hempty : key = ""
    · subst hempty
      rfl
    rw [Fixture.typename?_of_ne hempty, Fixture.typename?_of_ne hempty]
    rcases h.field?_eq key with ⟨hv, hv'⟩ | ⟨inner, inner', hv, hv', hinner⟩
    · rw [hv, hv']
    · rw [hv, hv']
      cases hinner <;> rfl

end Json.Rearranged

namespace Fixture

open Json (Rearranged)

variable {fixed : Json.Path → Prop} {schema : Schema}

theorem isSimilarity_rearranged : IsSimilarity (Rearranged fixed) where
  kindOf_eq h := h.kindOf_eq
  length_eq h := by
    cases h with
    | same => rfl
    | arr _ length _ => exact length
  item h i value value' hv hv' := by
    cases h with
    | same =>
      rw [hv] at hv'
      cases hv'
      exact .same _ _
    | arr _ _ each => exact each i value value' hv hv'

/-- Objects have the same keys in some order. -/
theorem perm_keys {path : Json.Path} {v v' : Located} (h : Rearranged fixed path v.value v'.value) :
    v.keys.Perm v'.keys := by
  obtain ⟨p, value⟩ := v
  obtain ⟨p', value'⟩ := v'
  cases h with
  | same => exact .refl _
  | arr _ _ _ => exact .refl _
  | obj _ keys _ => exact keys

theorem isEmptyObject_eq_of_rearranged {path : Json.Path} {v v' : Located}
    (h : Rearranged fixed path v.value v'.value) : v.isEmptyObject = v'.isEmptyObject := by
  obtain ⟨p, value⟩ := v
  obtain ⟨p', value'⟩ := v'
  cases h with
  | same => rfl
  | arr _ _ _ => rfl
  | @obj _ entries entries' _ keys _ =>
    cases entries with
    | nil =>
      obtain rfl : entries' = [] := by simpa using keys
      rfl
    | cons _ _ =>
      cases entries' with
      | nil => simp at keys
      | cons _ _ => rfl

/-! ## Walks -/

/-- **Is a value at a place one of a leaf type**: does a walk look there through a field whose type stands for leaves,
or lists of them? -/
def HoldsLeaf (schema : Schema) (top : List Selection) (start : Frame) (path : Json.Path) : Prop :=
  ∃ m definition, LooksAtPlace schema top start path m definition ∧ schema.isInputType definition.type = true

/-- Does a value stand in a fixture, and rearranged in another one? -/
structure StandsRearranged (fixed : Json.Path → Prop) (fixture fixture' : Json) (v : Located) : Prop where
  here : v.IsIn fixture
  there : (counterpart fixture' v).IsIn fixture'
  rearranged : Rearranged fixed v.path v.value (counterpart fixture' v).value

section

variable {top selections : List Selection} {start frame narrowed : Frame} {m : Met} {definition : GraphQL.OutputField}
  {fixture fixture' : Json}

/-- The check of a field on a rearranged object reports the same, and goes on with rearranged values. -/
theorem checkField_rearranged (hr : Reaches schema top start selections frame)
    (hl : LooksAt schema selections frame narrowed m definition) {u : Located} (hu : u ∈ narrowed.values)
    (h : StandsRearranged (HoldsLeaf schema top start) fixture fixture' u) (values : List Located) :
    let result := checkField schema narrowed m.field.key definition.type u
    let result' := checkField schema { narrowed with values } m.field.key definition.type (counterpart fixture' u)
    result'.errors = result.errors ∧ result'.children = result.children.map (counterpart fixture') ∧
      ∀ c ∈ result.children, StandsRearranged (HoldsLeaf schema top start) fixture fixture' c := by
  intro result result'
  have hsimilar : result.Similar (Rearranged (HoldsLeaf schema top start)) result' := by
    refine similar_checkField isSimilarity_rearranged rfl (isEmptyObject_eq_of_rearranged h.rearranged)
      (h.rearranged.typename?_eq _) ?_
    refine (h.rearranged.field?_eq m.field.key).imp id fun ⟨inner, inner', hv, hv', hinner⟩ => ?_
    refine ⟨inner, inner', hv, hv', ?_⟩
    split
    · rename_i hinput
      -- the value is that of a leaf, so nothing in it is in another place
      have hleaf : HoldsLeaf schema top start (u.path ++ [.key m.field.key]) :=
        ⟨m, definition, ⟨selections, frame, narrowed, u, hr, hl, hu, rfl⟩, hinput⟩
      rw [hinner.eq_of_fixed hleaf]
    · exact hinner
  obtain ⟨hmap, hall⟩ :=
    map_counterpart (fun _ _ h => h.1) hsimilar.children fun c' hc' => isIn_of_mem_checkField h.there hc'
  exact ⟨hsimilar.errors.symm, hmap, fun c hm => ⟨isIn_of_mem_checkField h.here hm, (hall c hm).1, (hall c hm).2.2⟩⟩

/-- **The objects that a walk reaches have counterparts in a fixture that is rearranged.** -/
theorem hasCounterparts_of_rearranged {root : String}
    (h : Rearranged (HoldsLeaf schema top (rootFrame schema root fixture)) [] fixture fixture') :
    HasCounterparts schema fixture fixture'
      (StandsRearranged (HoldsLeaf schema top (rootFrame schema root fixture)) fixture fixture') top
      (rootFrame schema root fixture) where
  starts v hv := by
    obtain rfl := List.mem_singleton.1 hv
    refine ⟨isIn_root fixture, by rw [counterpart_root]; exact isIn_root fixture', ?_⟩
    rw [counterpart_root]
    exact h
  isIn _ h := h.here
  kindOf_eq _ h := h.rearranged.kindOf_eq.symm
  typename?_eq _ _ _ _ _ h _ _ _ _ _ := (h.rearranged.typename?_eq _).symm
  checks _ _ hr _ _ _ hl _ hu h values := checkField_rearranged hr hl hu h values

end

/-! ## Keys that are left over -/

/-- The keys of an object that nothing in a tree expects. -/
def unexpectedKeys (tree : Expectation) (object : Located) : List String :=
  object.keys.filter (!isExpected tree.walk object ·)

theorem extraFields_eq_flatMap (tree : Expectation) :
    extraFields tree = (distinctObjects tree).flatMap (unexpectedKeys tree) := rfl

/-- Do trees leave the same keys of objects at one place over, in some order? -/
def LeaveSameKeys (tree tree' : Expectation) (object object' : Located) : Prop :=
  object'.path = object.path ∧ (unexpectedKeys tree' object').Perm (unexpectedKeys tree object)

/-- **Do walks come to the same but for the order in which keys of one object are left over?** -/
structure SameButForOrder (walk walk' : Checking Expectation) : Prop where
  errors : walk'.errors = walk.errors
  outcome : (∃ cause, walk.outcome = .error cause ∧ walk'.outcome = .error cause) ∨
    ∃ tree tree', walk.outcome = .ok tree ∧ walk'.outcome = .ok tree' ∧
      List.Forall₂ (LeaveSameKeys tree tree') (distinctObjects tree) (distinctObjects tree')

namespace SameButForOrder

variable {walk walk' : Checking Expectation}

theorem refl (walk : Checking Expectation) : SameButForOrder walk walk where
  errors := rfl
  outcome := by
    cases walk.outcome with
    | error cause => exact .inl ⟨cause, rfl, rfl⟩
    | ok tree => exact .inr ⟨tree, tree, rfl, rfl, List.forall₂_same.2 fun o _ => ⟨rfl, .refl _⟩⟩

theorem perm_extraFields {tree tree' : Expectation}
    (h : List.Forall₂ (LeaveSameKeys tree tree') (distinctObjects tree) (distinctObjects tree')) :
    (extraFields tree').Perm (extraFields tree) := by
  rw [extraFields_eq_flatMap, extraFields_eq_flatMap]
  generalize distinctObjects tree = objects at h
  generalize distinctObjects tree' = objects' at h
  induction h with
  | nil => exact .refl _
  | cons hfirst _ ih =>
    rw [List.flatMap_cons, List.flatMap_cons]
    exact hfirst.2.append ih

/-- Walks that come to the same but for the order of keys amount to the same but for the order of errors. -/
theorem ofWalk (h : SameButForOrder walk walk') :
    (CheckResult.ofWalk walk').aborted = (CheckResult.ofWalk walk).aborted ∧
      (CheckResult.ofWalk walk').errors.Perm (CheckResult.ofWalk walk).errors := by
  rcases h.outcome with ⟨cause, ho, ho'⟩ | ⟨tree, tree', ho, ho', hleft⟩
  · simp only [CheckResult.ofWalk, ho, ho', h.errors]
    exact ⟨trivial, .refl _⟩
  · simp only [CheckResult.ofWalk, ho, ho', h.errors]
    exact ⟨trivial, .append_left _ ((perm_extraFields hleft).map _)⟩

end SameButForOrder

section

variable {operation : Operation} {root : String} {fixture fixture' : Json}

/-- **A walk comes to the same in a fixture that is rearranged**, but for the order of keys that are left over. -/
theorem sameButForOrder_of_rearranged
    (h : Rearranged (HoldsLeaf schema operation.selections (rootFrame schema root fixture)) [] fixture fixture') :
    SameButForOrder (walkOperation schema root operation fixture) (walkOperation schema root operation fixture') := by
  have hcounterparts := hasCounterparts_of_rearranged h
  by_cases hk : kindOf fixture = .object
  · obtain ⟨herrors, houtcome⟩ := hcounterparts.walkOperation_counterpart hk
    refine ⟨herrors, ?_⟩
    rw [houtcome]
    cases hw : (walkOperation schema root operation fixture).outcome with
    | error cause => exact .inl ⟨cause, rfl, rfl⟩
    | ok tree =>
      rw [walkOperation_of_object hk] at hw
      have hb : Builds schema operation.selections (rootFrame schema root fixture) tree := ⟨none, hw⟩
      refine .inr ⟨tree, _, rfl, rfl, ?_⟩
      rw [distinctObjects_counterpart, List.forall₂_map_right_iff, List.forall₂_same]
      intro v hv
      have hstands := hcounterparts.stands_of_mem hb hv
      have hexpected := hcounterparts.isExpected_counterpart hb hstands
      refine ⟨rfl, ?_⟩
      rw [unexpectedKeys, unexpectedKeys, List.filter_congr fun k _ => congrArg (!·) (hexpected k)]
      exact (perm_keys hstands.rearranged).symm.filter _
  · rw [hcounterparts.walkOperation_of_not_object hk]
    exact .refl _

/-- **The order of entries does not matter**: if fixtures differ in the order of entries of objects that are not part of
leaves, checks of them fail alike, or walks come to the same but for the order of keys of one object that are left
over. -/
theorem check_rearranged {document : Document} {name : Option String}
    (h : ∀ operation root, Compares schema document name operation root →
      Rearranged (HoldsLeaf schema operation.selections (rootFrame schema root fixture)) [] fixture fixture') :
    (∃ cause, check schema document fixture name = .error cause ∧ check schema document fixture' name = .error cause) ∨
      ∃ operation root, Compares schema document name operation root ∧
        check schema document fixture name = .ok (.ofWalk (walkOperation schema root operation fixture)) ∧
        check schema document fixture' name = .ok (.ofWalk (walkOperation schema root operation fixture')) ∧
        SameButForOrder (walkOperation schema root operation fixture) (walkOperation schema root operation fixture') ∧
        (CheckResult.ofWalk (walkOperation schema root operation fixture')).aborted =
          (CheckResult.ofWalk (walkOperation schema root operation fixture)).aborted ∧
        (CheckResult.ofWalk (walkOperation schema root operation fixture')).errors.Perm
          (CheckResult.ofWalk (walkOperation schema root operation fixture)).errors := by
  rcases exists_compares_or schema document name with ⟨operation, root, hc⟩ | ⟨cause, hfails⟩
  · have hsame := sameButForOrder_of_rearranged (h operation root hc)
    exact .inr ⟨operation, root, hc, check_eq_ok_iff.2 ⟨operation, root, hc, rfl⟩,
      check_eq_ok_iff.2 ⟨operation, root, hc, rfl⟩, hsame, hsame.ofWalk⟩
  · exact .inl ⟨cause, hfails fixture, hfails fixture'⟩

end

/-! ## A cat between its age and its legs -/

/-- Leaves stand under keys. -/
theorem not_holdsLeaf_nil {top : List Selection} {start : Frame} : ¬ HoldsLeaf schema top start [] := by
  rintro ⟨m, definition, ⟨selections, frame, narrowed, v, -, -, -, hpath⟩, -⟩
  simp at hpath

/-- A query for the name of the cat. -/
def nameOperation : Operation := ⟨none, .query, none, [], [], [plain "cat" [plain "name" []]]⟩

/-- The entries of a fixture with a cat, and two more that no query asks for. -/
def catEntries : List (String × Json) := [("age", .int 3), ("cat", .obj [("name", .str "Tom")]), ("legs", .int 4)]

theorem compares_nameOperation : Compares catSchema [.operation nameOperation] none nameOperation "Query" :=
  ⟨⟨[.operation nameOperation], by cbv, by cbv⟩, by cbv⟩

theorem check_catEntries : check catSchema [.operation nameOperation] (.obj catEntries) none =
    .ok ⟨[(Mismatch.extraField "age").message, (Mismatch.extraField "legs").message], false⟩ :=
  compares_nameOperation.check_eq [] ["age", "legs"] (by cbv) (by cbv)

theorem check_catEntries_reverse : check catSchema [.operation nameOperation] (.obj catEntries.reverse) none =
    .ok ⟨[(Mismatch.extraField "legs").message, (Mismatch.extraField "age").message], false⟩ :=
  compares_nameOperation.check_eq [] ["legs", "age"] (by cbv) (by cbv)

/-- Both fixtures have the age and the legs left over, each in the order in which it has them. -/
theorem age_and_legs_left_over :
    (∀ operation root, Compares catSchema [.operation nameOperation] none operation root →
      Rearranged (HoldsLeaf catSchema operation.selections (rootFrame catSchema root (.obj catEntries))) []
        (.obj catEntries) (.obj catEntries.reverse)) ∧
    check catSchema [.operation nameOperation] (.obj catEntries) none =
      .ok ⟨[(Mismatch.extraField "age").message, (Mismatch.extraField "legs").message], false⟩ ∧
    check catSchema [.operation nameOperation] (.obj catEntries.reverse) none =
      .ok ⟨[(Mismatch.extraField "legs").message, (Mismatch.extraField "age").message], false⟩ ∧
    SameButForOrder (walkOperation catSchema "Query" nameOperation (.obj catEntries))
      (walkOperation catSchema "Query" nameOperation (.obj catEntries.reverse)) := by
  have hrearranged : ∀ operation root, Compares catSchema [.operation nameOperation] none operation root →
      Rearranged (HoldsLeaf catSchema operation.selections (rootFrame catSchema root (.obj catEntries))) []
        (.obj catEntries) (.obj catEntries.reverse) :=
    fun _ _ _ => .of_perm not_holdsLeaf_nil catEntries.reverse_perm.symm (by decide)
  refine ⟨hrearranged, check_catEntries, check_catEntries_reverse, ?_⟩
  rcases check_rearranged hrearranged with ⟨cause, hfails, -⟩ | ⟨operation, root, hc, -, -, hsame, -⟩
  · rw [check_catEntries] at hfails
    cases hfails
  · obtain ⟨rfl, rfl⟩ := hc.unique compares_nameOperation
    exact hsame

end Fixture

end FixtureCheck
