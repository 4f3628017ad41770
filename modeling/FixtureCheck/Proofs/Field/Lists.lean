import FixtureCheck.Proofs.Walk.Named

/-!
# Lists in the values of fields

`HasLists` says that a value has an array wherever its type has a list. The check of a field with parts accepts no other
values. A type of leaves takes what it takes as input, and there a value that is no array stands for an array of itself,
so it takes a value if and only if it takes the value with all of these put into arrays (`misfitsAt_eq_nil_iff`). What
is accepted therefore has the lists of its type unless something stands alone in it (`accepted_iff_and_hasLists`), and a
value that stands alone is accepted (`lone_number_is_accepted`).
-/

namespace FixtureCheck.Fixture

open GraphQL (Schema TypeRef)

/-- Has a value arrays where a type has lists, null only where the type lets it be, and at the core of the type what the
core asks for? -/
def HasListsOf (core : String → Json → Prop) : TypeRef → Json → Prop
  | .named name, value => value = .null ∨ core name value
  | .list item, value => value = .null ∨ ∃ items, value = .arr items ∧ ∀ i ∈ items, HasListsOf core item i
  | .nonNull type, value => value ≠ .null ∧ HasListsOf core type value

/-- **Has a value the lists of a type**: an array, or null, at each list, null only where the type lets it be, and so
for each item? -/
def HasLists : TypeRef → Json → Prop := HasListsOf fun _ _ => True

/-- Does something stand alone in a value where the type has a list: is it neither null nor an array? -/
def StandsAlone : TypeRef → Json → Prop
  | .named _, _ => False
  | .list item, value =>
    (value ≠ .null ∧ ∀ items, value ≠ .arr items) ∨ ∃ items, value = .arr items ∧ ∃ i ∈ items, StandsAlone item i
  | .nonNull type, value => StandsAlone type value

/-- The value with everything that stands alone put into arrays. -/
def inArrays : TypeRef → Json → Json
  | .named _, value => value
  | .list item, value =>
    match value with
    | .null => .null
    | .arr items => .arr (items.map (inArrays item))
    | single => .arr [inArrays item single]
  | .nonNull type, value => inArrays type value

section

variable {core core' : String → Json → Prop} {type : TypeRef} {value : Json}

theorem HasListsOf.mono (h : HasListsOf core type value) (hcore : ∀ name v, core name v → core' name v) :
    HasListsOf core' type value := by
  induction type generalizing value with
  | named name => exact h.imp_right (hcore name value)
  | list item ih =>
    refine h.imp_right ?_
    rintro ⟨items, rfl, hitems⟩
    exact ⟨items, rfl, fun i hi => ih (hitems i hi)⟩
  | nonNull inner ih => exact ⟨h.1, ih h.2⟩

/-- Values of types with parts are objects in the lists of the type. -/
theorem hasShape_iff_hasListsOf : HasShape type value ↔ HasListsOf (fun _ v => kindOf v = .object) type value := by
  induction type generalizing value with
  | named name => rfl
  | list item ih =>
    simp only [HasShape, HasListsOf, ih]
  | nonNull inner ih => simp only [HasShape, HasListsOf, ih]

/-- What has the lists of a type has nothing that stands alone. -/
theorem not_standsAlone (h : HasListsOf core type value) : ¬ StandsAlone type value := by
  induction type generalizing value with
  | named name => exact id
  | list item ih =>
    rintro (⟨hnull, harr⟩ | ⟨items, rfl, i, hi, halone⟩)
    · rcases h with rfl | ⟨items, rfl, -⟩
      · exact hnull rfl
      · exact harr items rfl
    · rcases h with h | ⟨items', h, hitems⟩
      · cases h
      · cases h
        exact ih (hitems i hi) halone
  | nonNull inner ih => exact ih h.2

theorem inArrays_eq_null : inArrays type value = .null ↔ value = .null := by
  induction type generalizing value with
  | named name => rfl
  | list item ih => cases value <;> simp [inArrays]
  | nonNull inner ih => exact ih

/-- A value in which nothing stands alone has its arrays already. -/
theorem inArrays_eq_self (h : ¬ StandsAlone type value) : inArrays type value = value := by
  induction type generalizing value with
  | named name => rfl
  | list item ih =>
    cases value with
    | null => rfl
    | arr items =>
      have hitems : ∀ i ∈ items, inArrays item i = i :=
        fun i hi => ih fun halone => h (.inr ⟨items, rfl, i, hi, halone⟩)
      rw [inArrays, List.map_congr_left hitems, List.map_id']
    | bool b | int n | float x | str s | obj entries => exact absurd (.inl ⟨by simp, by simp⟩) h
  | nonNull inner ih => exact ih h

end

/-! ## Leaves -/

section

variable {schema : Schema} {type : TypeRef} {value : Json}

/-- **A type of leaves, or of lists of them, takes a value if and only if the value has the lists of the type once what
stands alone is put into arrays**, and the leaves fit. -/
theorem misfitsAt_eq_nil_iff (hl : schema.isLeaf type.base = true) (path : Json.Path) :
    GraphQL.misfitsAt schema path type value = [] ↔
      HasListsOf (fun name v => GraphQL.leafCause? schema name v = none) type (inArrays type value) := by
  induction type generalizing value path with
  | named name => exact misfitsAt_named_eq_nil hl path
  | list item ih =>
    have halone : ∀ single, HasListsOf (fun name v => GraphQL.leafCause? schema name v = none) (.list item)
        (.arr [inArrays item single]) ↔ GraphQL.misfitsAt schema path item single = [] := by
      intro single
      rw [ih hl]
      simp [HasListsOf]
    cases value with
    | null => simp [GraphQL.misfitsAt, inArrays, HasListsOf]
    | arr items =>
      simp only [misfitsAt_list_eq_nil, ih hl, inArrays, HasListsOf, reduceCtorEq, false_or, Json.arr.injEq,
        exists_eq_left', List.forall_mem_map]
      constructor
      · intro h i hi
        obtain ⟨j, hj⟩ := List.mem_iff_getElem?.1 hi
        exact h j i hj
      · exact fun h j i hj => h i (List.mem_of_getElem? hj)
    | bool b | int n | float x | str s | obj entries =>
      rw [GraphQL.misfitsAt]
      · exact (halone _).symm
      all_goals simp
  | nonNull inner ih =>
    have hnull : GraphQL.isNullValue value = true ↔ value = .null := by
      cases value <;> simp [GraphQL.isNullValue]
    rw [GraphQL.misfitsAt, HasListsOf]
    simp only [inArrays, ne_eq, inArrays_eq_null, ← ih hl path, ← hnull]
    split <;> simp_all

end

/-! ## Fields -/

section

variable {schema : Schema} {frame : Frame} {key : String} {type : TypeRef} {parent v : Located}

/-- **What the check of a field accepts.** A type with parts takes objects in its lists. A type of leaves takes leaves
in its lists where a value that stands alone counts as an array of itself. So an accepted value has the lists of its
type if and only if nothing in it stands alone, which it never does where the type has parts. -/
theorem accepted_iff_and_hasLists (ho : schema.isOutputType type = true) (hp : type.isProper = true)
    (hv : parent.field? key = some v) :
    ((checkField schema frame key type parent).errors = [] ↔
      schema.isComposite type.base = true ∧ HasListsOf (fun _ v => kindOf v = .object) type v.value ∨
      schema.isLeaf type.base = true ∧
        HasListsOf (fun name v => GraphQL.leafCause? schema name v = none) type (inArrays type v.value)) ∧
    ((checkField schema frame key type parent).errors = [] →
      (HasLists type v.value ↔ ¬ StandsAlone type v.value) ∧
      (schema.isComposite type.base = true → HasLists type v.value)) := by
  have haccepted : (checkField schema frame key type parent).errors = [] ↔
      schema.isComposite type.base = true ∧ HasListsOf (fun _ v => kindOf v = .object) type v.value ∨
      schema.isLeaf type.base = true ∧
        HasListsOf (fun name v => GraphQL.leafCause? schema name v = none) type (inArrays type v.value) := by
    rw [errors_checkField_eq_nil ho hp hv, Fits]
    cases hl : schema.isLeaf type.base with
    | true =>
      have hinput := Schema.isInputType_of_isLeaf type hl
      have hc : schema.isComposite type.base = false := by
        by_contra hc
        rw [Schema.isInputType_eq_false type (by simpa using hc)] at hinput
        cases hinput
      rw [if_pos hinput, hc, GraphQL.misfits, misfitsAt_eq_nil_iff hl]
      simp
    | false =>
      have hc := Schema.isComposite_of_isOutput ho hl
      rw [if_neg (by simp [Schema.isInputType_eq_false type hc]), hc, hasShape_iff_hasListsOf]
      simp
  have hcomposite : ∀ {core}, HasListsOf core type v.value → HasLists type v.value :=
    fun h => h.mono fun _ _ _ => trivial
  refine ⟨haccepted, fun h => ⟨⟨not_standsAlone, fun halone => ?_⟩, fun hc => ?_⟩⟩
  · rcases haccepted.1 h with ⟨-, hlists⟩ | ⟨-, hlists⟩
    · exact hcomposite hlists
    · rw [inArrays_eq_self halone] at hlists
      exact hcomposite hlists
  · rcases haccepted.1 h with ⟨-, hlists⟩ | ⟨hl, -⟩
    · exact hcomposite hlists
    · have hinput := Schema.isInputType_of_isLeaf type hl
      rw [Schema.isInputType_eq_false type hc] at hinput
      cases hinput

end

/-! ## Scores -/

/-- Teams have scores, by round. -/
def teamSchema : Schema where
  types :=
    ⟨"Query", .object [] [⟨"team", .named "Team", []⟩]⟩ ::
    ⟨"Team", .object [] [⟨"scores", .list (.nonNull (.list (.named "Int"))), []⟩]⟩ ::
    GraphQL.Standard.types
  query := some "Query"
  mutation := none
  subscription := none
  directives := GraphQL.Standard.directives

/-- A team with scores. -/
def teamWith (scores : Json) : Located := ⟨[.key "team"], .obj [("scores", scores)]⟩

/-- The frame of a team. -/
def teamFrame (scores : Json) : Frame := .forField teamSchema [teamWith scores] "Team" none

theorem teamSchema_isWellFormed : teamSchema.IsWellFormed where
  named := by decide +kernel
  distinct := by decide +kernel
  output := by decide +kernel
  members := by decide +kernel
  text := rfl
  aboutSchema := by decide +kernel
  aboutTypes := by decide +kernel

/-- Scores in arrays of rounds are accepted, and have the lists of their type. -/
theorem scores_are_accepted :
    let type : TypeRef := .list (.nonNull (.list (.named "Int")))
    let scores : Json := .arr [.arr [.int 1, .null], .arr []]
    teamSchema.isOutputType type = true ∧ type.isProper = true ∧
    (teamWith scores).field? "scores" = some ⟨[.key "team", .key "scores"], scores⟩ ∧
    (checkField teamSchema (teamFrame scores) "scores" type (teamWith scores)).errors = [] ∧
    HasLists type scores := by
  intro type scores
  have ho : teamSchema.isOutputType type = true := by decide +kernel
  have hv : (teamWith scores).field? "scores" = some ⟨[.key "team", .key "scores"], scores⟩ := by cbv
  have haccepted : (checkField teamSchema (teamFrame scores) "scores" type (teamWith scores)).errors = [] := by cbv
  have halone : ¬ StandsAlone type scores := by simp [type, scores, StandsAlone]
  exact ⟨ho, rfl, hv, haccepted, ((accepted_iff_and_hasLists ho rfl hv).2 haccepted).1.2 halone⟩

/-- **A number is accepted where the type has a list of numbers.** -/
theorem lone_number_is_accepted :
    ¬ ∀ (schema : Schema) (frame : Frame) (key : String) (type : TypeRef) (parent v : Located),
      schema.IsWellFormed → schema.isOutputType type = true → type.isProper = true → parent.field? key = some v →
        (checkField schema frame key type parent).errors = [] → HasLists type v.value := by
  intro hall
  have ho : teamSchema.isOutputType (.list (.nonNull (.list (.named "Int")))) = true := by decide +kernel
  have hv : (teamWith (.int 5)).field? "scores" = some ⟨[.key "team", .key "scores"], .int 5⟩ := by cbv
  have haccepted : (checkField teamSchema (teamFrame (.int 5)) "scores" (.list (.nonNull (.list (.named "Int"))))
      (teamWith (.int 5))).errors = [] := by cbv
  have hlists : HasLists (.list (.nonNull (.list (.named "Int")))) (.int 5) :=
    hall teamSchema _ "scores" _ _ _ teamSchema_isWellFormed ho rfl hv haccepted
  rcases hlists with hnull | ⟨items, hitems, -⟩
  · cases hnull
  · cases hitems

end FixtureCheck.Fixture
