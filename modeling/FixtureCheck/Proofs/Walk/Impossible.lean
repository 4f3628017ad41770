import FixtureCheck.Proofs.Walk.Frames
import FixtureCheck.Proofs.Walk.Shadowed

/-!
# Fields under impossible conditions

Type conditions overlap in pairs in an accepted query, and still no type of the field around need meet all of them
(`AreImpossible`). A walk looks at fields under such conditions all the same, on the objects that name no type where
fragments are entered. It reports that an object lacks such a field unless the object names a type where the field
stands, or is empty where no type can be named (`missing_iff_of_areImpossible`). So objects that name their types are
never reported, but others are (`impossible_field_is_missed`).
-/

namespace FixtureCheck.Fixture

open GraphQL (Schema Document Field Selection Operation OutputField TypeRef)
open Expectation (holding)

section

variable {schema : Schema} {frame : Frame} {key key' : String} {type : TypeRef} {v : Located}

/-! ## Missing fields -/

/-- The items of an array are not missing. -/
theorem missing_not_mem_flatten {item : TypeRef} {place : ItemPlace} {path : Json.Path} {items : List Json} :
    .missing key ∉ (flatten schema item place path items).errors := by
  rw [flatten, flattenItems_eq]
  intro hm
  obtain ⟨e, -, he⟩ := List.mem_map.1 hm
  unfold Element.mismatch at he
  split at he <;> cases he

/-- **A field is reported to be missing on an object** if it is not there and the frame expects it. -/
theorem missing_mem_checkField : .missing key' ∈ (checkField schema frame key type v).errors ↔
    key' = key ∧ v.field? key = none ∧ frame.expects v = true := by
  cases hv : v.field? key with
  | none =>
    rw [checkField, hv]
    cases frame.expects v <;> simp [FieldResult.error]
  | some w =>
    suffices h : .missing key' ∉ (checkField schema frame key type v).errors by simpa using h
    unfold checkField
    rw [hv]
    simp only
    split
    · simp
    · split
      · split <;> simp [FieldResult.error]
      · split
        · simp
        · split <;> simp [FieldResult.error]
      · exact missing_not_mem_flatten
      · simp [FieldResult.error]
      · split
        · simp [FieldResult.error]
        · split <;> simp [FieldResult.error, FieldResult.child]
      · simp

/-- A frame with no types left, but not all of the field's, expects a field of an object that names no type, and is not
empty where no type can be named. -/
theorem expects_of_no_types (hnone : ∀ type, type ∉ frame.possible) (hsome : ∃ type, type ∈ frame.fieldPossible) :
    frame.expects v = true ↔ typename? v.value frame.typenameKey = none ∧
      (frame.typenameKey = none ∨ frame.typenameKey = some "" → v.isEmptyObject = false) := by
  have hnarrowed : frame.isNarrowed = true := by
    rw [Frame.isNarrowed, bne_iff_ne]
    intro hsame
    obtain ⟨type, htype⟩ := hsome
    exact hnone type (hsame ▸ htype)
  have hmay : MayBe v frame.typenameKey frame.possible ↔ typename? v.value frame.typenameKey = none := by
    rw [MayBe, Option.eq_none_iff_forall_ne_some]
    exact forall_congr' fun name => ⟨fun h hn => hnone name (h hn), fun h hn => absurd hn (h ·)⟩
  rw [← Bool.not_eq_false, Frame.expects_eq_false_iff, hmay, hnarrowed, not_or, not_not, and_comm]
  simp

end

/-! ## Impossible conditions -/

/-- Does a type stand for object types, none of which meets all of the conditions? -/
def AreImpossible (schema : Schema) (declared : String) (conditions : List String) : Prop :=
  (∃ type, type ∈ schema.possibleTypes declared) ∧
    ∀ type ∈ schema.possibleTypes declared, ∃ c ∈ conditions, type ∉ schema.possibleTypes c

/-- **A walk through an operation looks at a field in a frame**, under type conditions in a field of a declared type. -/
structure LooksUnder (schema : Schema) (root : String) (operation : Operation) (fixture : Json) (declared : String)
    (conditions : List String) (narrowed : Frame) (f : Field) (definition : OutputField) : Prop where
  through : ∃ objects frame selections inner,
    GoesThrough schema root (rootValues fixture) operation.selections declared objects conditions frame selections ∧
      .field f inner ∈ selections ∧ narrowed = frame.inSet selections
  known : schema.fieldOf? (some narrowed.type) f.name = some definition

/-- Does a walk that looks at a field in a frame report that an object lacks it? -/
def IsMissedOn (schema : Schema) (narrowed : Frame) (f : Field) (definition : OutputField) (v : Located) : Prop :=
  v ∈ narrowed.values ∧ .missing f.key ∈ (checkField schema narrowed f.key definition.type v).errors

/-- Is a field with a key missed on an object somewhere in a walk? -/
def IsMissedSomewhere (schema : Schema) (root : String) (operation : Operation) (fixture : Json) (key : String) :
    Prop :=
  ∃ declared conditions narrowed f definition v,
    LooksUnder schema root operation fixture declared conditions narrowed f definition ∧ f.key = key ∧
      IsMissedOn schema narrowed f definition v

/-- **Fields under impossible conditions are missed only on objects that name no type**, and only on objects with other
fields where no type can be named. On such objects that a frame has they are missed if they are not there. What a walk
reports to be missing it misses on an object where it looks at a field, and it reports what it misses there unless it is
cut off. -/
theorem missing_iff_of_areImpossible {schema : Schema} (hw : schema.IsWellFormed) (root : String)
    (operation : Operation) (fixture : Json) :
    (∀ declared conditions narrowed f definition,
      LooksUnder schema root operation fixture declared conditions narrowed f definition →
      AreImpossible schema declared conditions → ∀ v,
        IsMissedOn schema narrowed f definition v ↔ v ∈ narrowed.values ∧ v.field? f.key = none ∧
          typename? v.value narrowed.typenameKey = none ∧
          (narrowed.typenameKey = none ∨ narrowed.typenameKey = some "" → v.isEmptyObject = false)) ∧
    ∀ key,
      (.missing key ∈ (walkOperation schema root operation fixture).errors →
        IsMissedSomewhere schema root operation fixture key) ∧
      (∀ tree, (walkOperation schema root operation fixture).outcome = .ok tree →
        IsMissedSomewhere schema root operation fixture key →
        .missing key ∈ (walkOperation schema root operation fixture).errors) := by
  refine ⟨fun declared conditions narrowed f definition hlooks himpossible v => ?_, fun key => ⟨fun hm => ?_, ?_⟩⟩
  · obtain ⟨objects, frame, selections, inner, hthrough, -, rfl⟩ := hlooks.through
    have hat := (hthrough.isAt_rootValues hw).inSet selections
    obtain ⟨hsome, hnone⟩ := himpossible
    rw [IsMissedOn, missing_mem_checkField, expects_of_no_types ?_ (by rwa [hat.fieldPossible])]
    · simp
    · intro type htype
      rw [hat.possible, mem_narrowAll] at htype
      obtain ⟨c, hc, hno⟩ := hnone type htype.1
      exact hno (htype.2 c hc)
  · rcases isFoundIn_of_mem_walkOperation hm with h | h
    · cases h
    · obtain ⟨declared, objects, conditions, frame, selections, hthrough, f, inner, definition, hmem, hknown, v, hv,
        hm⟩ := h
      obtain ⟨rfl, -⟩ := missing_mem_checkField.1 hm
      exact ⟨declared, conditions, frame.inSet selections, f, definition, v,
        ⟨⟨objects, frame, selections, inner, hthrough, hmem, rfl⟩, hknown⟩, rfl, hv, hm⟩
  · rintro tree hwalk ⟨declared, conditions, _, f, definition, v, ⟨⟨objects, frame, selections, inner, hthrough, hmem,
      rfl⟩, hknown⟩, rfl, hv, hm⟩
    exact mem_walkOperation_of_isFoundIn hwalk
      ⟨declared, objects, conditions, frame, selections, hthrough, f, inner, definition, hmem, hknown, v, hv, hm⟩

/-! ## A cat that should bark -/

/-- Cats and dogs are named, but only dogs bark. -/
def barkSchema : Schema where
  types :=
    ⟨"Query", .object [] [⟨"cat", .named "Cat", []⟩]⟩ ::
    ⟨"Named", .interface [] [⟨"name", .named "String", []⟩]⟩ ::
    ⟨"Barking", .interface [] [⟨"bark", .named "String", []⟩]⟩ ::
    ⟨"Cat", .object ["Named"] [⟨"name", .named "String", []⟩]⟩ ::
    ⟨"Dog", .object ["Named", "Barking"] [⟨"name", .named "String", []⟩, ⟨"bark", .named "String", []⟩]⟩ ::
    GraphQL.Standard.types
  query := some "Query"
  mutation := none
  subscription := none
  directives := GraphQL.Standard.directives

theorem barkSchema_isWellFormed : barkSchema.IsWellFormed where
  named := by decide +kernel
  distinct := by decide +kernel
  output := by decide +kernel
  members := by decide +kernel
  text := rfl
  aboutSchema := by decide +kernel
  aboutTypes := by decide +kernel

/-- The bark of what is named and barks. -/
def ofBarking : List Selection := [.inline (some "Barking") [] [plain "bark" []]]

/-- A query for the name of a cat, and for its bark if it is named and barks. -/
def barkOperation : Operation :=
  ⟨none, .query, none, [], [], [plain "cat" [plain "name" [], .inline (some "Named") [] ofBarking]]⟩

theorem validate_barkOperation : GraphQL.validate barkSchema [.operation barkOperation] = .ok [] :=
  eq_ok_of_toOption (by decide +kernel)

theorem compares_barkOperation : Compares barkSchema [.operation barkOperation] none barkOperation "Query" :=
  ⟨⟨[.operation barkOperation], by cbv, by cbv⟩, by cbv⟩

/-- A cat with a name. -/
def tom : Located := ⟨[.key "cat"], .obj [("name", .str "Tom")]⟩

/-- A fixture with the cat. -/
def tomAlone : Json := .obj [("cat", tom.value)]

/-- The frame of the cat. -/
def tomFrame : Frame :=
  ((startFrame barkSchema "Query" tomAlone).inSet barkOperation.selections).below barkSchema "cat"
    ⟨"cat", .named "Cat", []⟩

/-- The frame of the cat if it is named. -/
def tomNamedFrame : Frame :=
  (tomFrame.inSet [plain "name" [], .inline (some "Named") [] ofBarking]).enter barkSchema (some "Named")

/-- The frame of the cat if it is named and barks. -/
def tomBarkingFrame : Frame := (tomNamedFrame.inSet ofBarking).enter barkSchema (some "Barking")

theorem looksUnder_bark : LooksUnder barkSchema "Query" barkOperation tomAlone "Cat" ["Named", "Barking"]
    (tomBarkingFrame.inSet [plain "bark" []]) ⟨none, "bark", [], []⟩ ⟨"bark", .named "String", []⟩ := by
  have hcat : barkSchema.fieldOf? (some "Query") "cat" = some ⟨"cat", .named "Cat", []⟩ := by cbv
  have hfield : plain "cat" [plain "name" [], .inline (some "Named") [] ofBarking] ∈ barkOperation.selections :=
    List.mem_singleton_self _
  have hnamed : .inline (some "Named") [] ofBarking ∈ [plain "name" [], .inline (some "Named") [] ofBarking] :=
    List.mem_cons_of_mem _ (List.mem_singleton_self _)
  have htom : GoesThrough barkSchema "Query" (rootValues tomAlone) barkOperation.selections "Cat"
      (holding (some "cat") tomFrame.values).objects [] tomFrame
      [plain "name" [], .inline (some "Named") [] ofBarking] := GoesThrough.start.field hfield hcat
  have hbark' : .inline (some "Barking") [] [plain "bark" []] ∈ ofBarking := List.mem_singleton_self _
  have hnamed' : GoesThrough barkSchema "Query" (rootValues tomAlone) barkOperation.selections "Cat"
      (holding (some "cat") tomFrame.values).objects ["Named"] tomNamedFrame ofBarking := htom.fragment hnamed
  have hbarking : GoesThrough barkSchema "Query" (rootValues tomAlone) barkOperation.selections "Cat"
      (holding (some "cat") tomFrame.values).objects ["Named", "Barking"] tomBarkingFrame [plain "bark" []] :=
    hnamed'.fragment hbark'
  have hbark : barkSchema.fieldOf? (some "Barking") "bark" = some ⟨"bark", .named "String", []⟩ := by cbv
  exact ⟨⟨_, tomBarkingFrame, [plain "bark" []], [], hbarking, List.mem_singleton_self _, rfl⟩, hbark⟩

theorem areImpossible_bark : AreImpossible barkSchema "Cat" ["Named", "Barking"] := by
  have hcat : barkSchema.possibleTypes "Cat" = .singleton "Cat" := by cbv
  have hno : ¬ "Cat" ∈ barkSchema.possibleTypes "Barking" := by decide +kernel
  refine ⟨⟨"Cat", by rw [hcat]; simp⟩, fun type htype => ⟨"Barking", by simp, ?_⟩⟩
  rw [hcat, NameSet.mem_singleton] at htype
  rwa [htype]

theorem values_tomBarkingFrame : (tomBarkingFrame.inSet [plain "bark" []]).values = [tom] := by cbv

/-- **A field under impossible conditions can be missed**: a cat that is not asked for its type should bark. -/
theorem impossible_field_is_missed :
    ¬ ∀ (schema : Schema) (document : Document) (name : Option String) (fixture : Json) operation root,
      schema.IsWellFormed → GraphQL.validate schema document = .ok [] →
      Compares schema document name operation root →
      ∀ declared conditions narrowed f definition,
        LooksUnder schema root operation fixture declared conditions narrowed f definition →
        AreImpossible schema declared conditions → ∀ v, ¬ IsMissedOn schema narrowed f definition v := by
  intro hall
  refine hall barkSchema _ none tomAlone _ _ barkSchema_isWellFormed validate_barkOperation compares_barkOperation
    _ _ _ _ _ looksUnder_bark areImpossible_bark tom ⟨?_, ?_⟩
  · rw [values_tomBarkingFrame]
    exact List.mem_singleton_self _
  · exact missing_mem_checkField.2 ⟨rfl, by cbv, by cbv⟩

/-- The cat is missed to bark, since it is asked for no type and is not empty, and the check says so. -/
theorem tom_misses_bark : barkSchema.IsWellFormed ∧
    LooksUnder barkSchema "Query" barkOperation tomAlone "Cat" ["Named", "Barking"]
      (tomBarkingFrame.inSet [plain "bark" []]) ⟨none, "bark", [], []⟩ ⟨"bark", .named "String", []⟩ ∧
    AreImpossible barkSchema "Cat" ["Named", "Barking"] ∧
    IsMissedOn barkSchema (tomBarkingFrame.inSet [plain "bark" []]) ⟨none, "bark", [], []⟩
      ⟨"bark", .named "String", []⟩ tom ∧
    check barkSchema [.operation barkOperation] tomAlone none =
      .ok ⟨["Missing expected fixture data for bark"], false⟩ := by
  have hiff := (missing_iff_of_areImpossible barkSchema_isWellFormed "Query" barkOperation tomAlone).1 _ _ _ _ _
    looksUnder_bark areImpossible_bark tom
  refine ⟨barkSchema_isWellFormed, looksUnder_bark, areImpossible_bark,
    hiff.2 ⟨?_, by cbv, by cbv, fun _ => by cbv⟩,
    compares_barkOperation.check_eq [.missing "bark"] [] (by cbv) (by cbv)⟩
  rw [values_tomBarkingFrame]
  exact List.mem_singleton_self _

end FixtureCheck.Fixture
