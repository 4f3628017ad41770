import FixtureCheck.GraphQL.Schema.Standard

/-!
# Well-formed schemas

A schema refers to types by name. `Schema.IsWellFormed` says that the names lead where the schema language lets them
lead: the types of fields are output types, the members of unions object types, and the standard types that every query
can ask for are there. The fields that selections refer to then have output types (`IsWellFormed.fieldOf?`). No other
schemas are built (`Profile.isWellFormed_of_build`): neither texts nor descriptions define them.
-/

namespace FixtureCheck.GraphQL

/-- Is a written type one that the grammar has, without one mark for non-null on another? -/
def TypeRef.isProper : TypeRef → Bool
  | named _ => true
  | list item => item.isProper
  | nonNull nullable => !nullable.isNonNull && nullable.isProper

/-- The members of a union type. -/
def TypeDetails.members : TypeDetails → List String
  | union members => members
  | _ => []

/-- **Do the names in a schema lead to types of the right kinds?** -/
structure Schema.IsWellFormed (schema : Schema) : Prop where
  named : ∀ t ∈ schema.types, t.name ≠ ""
  distinct : (schema.types.map (·.name)).Nodup
  output : ∀ t ∈ schema.types, ∀ f ∈ t.details.fields, schema.isOutputType f.type = true ∧ f.type.isProper = true
  members : ∀ t ∈ schema.types, ∀ m ∈ t.details.members, schema.isObject m = true
  text : schema.details? "String" = some .scalar
  aboutSchema : schema.isObject "__Schema" = true
  aboutTypes : schema.isObject "__Type" = true

namespace Schema

variable {schema : Schema} {name : String}

theorem typeIs_iff {test : TypeDetails → Bool} :
    schema.typeIs test name = true ↔ ∃ details, schema.details? name = some details ∧ test details = true := by
  unfold typeIs
  cases schema.details? name <;> simp

theorem exists_type_of_details? {details : TypeDetails} (h : schema.details? name = some details) :
    ∃ t ∈ schema.types, t.name = name ∧ t.details = details := by
  obtain ⟨t, ht, rfl⟩ := Option.map_eq_some_iff.1 h
  exact ⟨t, List.mem_of_find?_eq_some ht, by simpa using List.find?_some ht, rfl⟩

/-- With distinct names, every type is found under its own. -/
theorem details?_of_mem (hn : (schema.types.map (·.name)).Nodup) {t : NamedType} (ht : t ∈ schema.types) :
    schema.details? t.name = some t.details := by
  obtain ⟨before, after, hsplit⟩ := List.append_of_mem ht
  have hnew : ∀ t' ∈ before, t'.name ≠ t.name := by
    intro t' ht' hname
    rw [hsplit, List.map_append, List.nodup_append] at hn
    exact hn.2.2 _ (List.mem_map_of_mem ht') _ (by simp) hname
  have hfind : schema.type? t.name = some t := by
    refine List.find?_eq_some_iff_append.2 ⟨by simp, before, after, hsplit, fun t' ht' => ?_⟩
    simpa using hnew t' ht'
  rw [details?, hfind, Option.map_some]

/-- A type is a type with fields or one without parts, if fields can have it. -/
theorem isComposite_of_isOutput (h : schema.typeIs (·.isOutput) name = true) (hl : schema.isLeaf name = false) :
    schema.isComposite name = true := by
  obtain ⟨details, hd, ho⟩ := typeIs_iff.1 h
  refine typeIs_iff.2 ⟨details, hd, ?_⟩
  have hleaf : details.isLeaf = false := by simpa [isLeaf, typeIs, hd] using hl
  cases details <;> simp_all [TypeDetails.isOutput, TypeDetails.isLeaf, TypeDetails.isComposite]

theorem isComposite_of_isObject (h : schema.isObject name = true) : schema.isComposite name = true := by
  obtain ⟨details, hd, ho⟩ := typeIs_iff.1 h
  refine typeIs_iff.2 ⟨details, hd, ?_⟩
  cases details <;> simp_all [TypeDetails.isObject, TypeDetails.isComposite]

theorem isOutput_of_isComposite (h : schema.isComposite name = true) : schema.typeIs (·.isOutput) name = true := by
  obtain ⟨details, hd, ho⟩ := typeIs_iff.1 h
  refine typeIs_iff.2 ⟨details, hd, ?_⟩
  cases details <;> simp_all [TypeDetails.isOutput, TypeDetails.isComposite]

/-- No input value has a type with fields. -/
theorem isInputType_eq_false (type : TypeRef) (h : schema.isComposite type.base = true) :
    schema.isInputType type = false := by
  obtain ⟨details, hd, hc⟩ := typeIs_iff.1 h
  rw [isInputType, typeIs, hd]
  cases details <;> simp_all [TypeDetails.isInput, TypeDetails.isComposite]

/-- Input values have the types without parts. -/
theorem isInputType_of_isLeaf (type : TypeRef) (h : schema.isLeaf type.base = true) :
    schema.isInputType type = true := by
  obtain ⟨details, hd, hl⟩ := typeIs_iff.1 h
  refine typeIs_iff.2 ⟨details, hd, ?_⟩
  cases details <;> simp_all [TypeDetails.isInput, TypeDetails.isLeaf]

/-- Types with fields are known. -/
theorem type?_of_isComposite (h : schema.isComposite name = true) : (schema.type? name).isSome := by
  obtain ⟨details, hd, -⟩ := typeIs_iff.1 h
  obtain ⟨t, ht, -⟩ := Option.map_eq_some_iff.1 hd
  rw [ht]
  rfl

/-- **Selections refer to fields with output types.** -/
theorem IsWellFormed.fieldOf? (h : schema.IsWellFormed) {parent : Option String} {definition : OutputField}
    (hf : schema.fieldOf? parent name = some definition) :
    schema.isOutputType definition.type = true ∧ definition.type.isProper = true := by
  have hobject : ∀ {object : String}, schema.isObject object = true → schema.typeIs (·.isOutput) object = true :=
    fun ho => isOutput_of_isComposite (isComposite_of_isObject ho)
  unfold Schema.fieldOf? at hf
  split at hf
  · cases hf
    exact ⟨typeIs_iff.2 ⟨.scalar, h.text, rfl⟩, rfl⟩
  · split at hf
    · cases hf
      exact ⟨hobject h.aboutSchema, rfl⟩
    · split at hf
      · cases hf
        exact ⟨hobject h.aboutTypes, rfl⟩
      · obtain ⟨details, hd, hfind⟩ := Option.bind_eq_some_iff.1 hf
        obtain ⟨parent, rfl, hd⟩ := Option.bind_eq_some_iff.1 hd
        obtain ⟨t, ht, -, rfl⟩ := exists_type_of_details? hd
        exact h.output t ht definition (List.mem_of_find?_eq_some hfind)

end Schema

end FixtureCheck.GraphQL
