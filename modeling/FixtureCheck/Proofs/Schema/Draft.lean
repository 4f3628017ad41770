import FixtureCheck.Proofs.Schema.Collect
import FixtureCheck.Proofs.Schema.WellFormed

/-!
# Schemas of sound drafts

A draft is sound if its types have distinct names and refer to types that are there and of the right kind. What a draft
becomes is then well formed (`Draft.IsSound.isWellFormed`): the collected types are closed under references, and
`__Schema` is collected with the types that it refers to.
-/

namespace FixtureCheck.GraphQL

/-- With distinct keys, every entry is found under its own. -/
theorem lookup_of_mem {β : Type} {entries : List (String × β)} (hn : (entries.map (·.1)).Nodup) {name : String} {b : β}
    (h : (name, b) ∈ entries) : entries.lookup name = some b := by
  obtain ⟨before, after, rfl⟩ := List.append_of_mem h
  rw [List.map_append, List.nodup_append] at hn
  refine List.lookup_eq_some_iff.2 ⟨before, after, rfl, fun entry hm => ?_⟩
  have hne : entry.1 ≠ name := hn.2.2 entry.1 (List.mem_map_of_mem hm) name (by simp)
  simpa using hne.symm

/-! ## Details in drafts -/

namespace DraftDetails

/-- Can fields have the type? -/
def isOutput : DraftDetails → Bool
  | input .. => false
  | _ => true

theorem details_ofDetails (details : TypeDetails) : (ofDetails details).details = .ok details := by
  cases details <;> rfl

theorem isOutput_ofDetails (details : TypeDetails) : (ofDetails details).isOutput = details.isOutput := by
  cases details <;> rfl

theorem isObject_ofDetails (details : TypeDetails) : (ofDetails details).isObject = details.isObject := by
  cases details <;> rfl

/-- What is seen of a type whose parts are looked at. -/
inductive Shows : DraftDetails → TypeDetails → Prop
  | scalar : Shows scalar .scalar
  | object {interfaces fields names values} (hi : interfaces = .ok names) (hf : fields = .ok values) :
    Shows (object interfaces fields) (.object names values)
  | interface {interfaces fields names values} (hi : interfaces = .ok names) (hf : fields = .ok values) :
    Shows (interface interfaces fields) (.interface names values)
  | union {members names} (hm : members = .ok names) : Shows (union members) (.union names)
  | enum {values} : Shows (enum values) (.enum values)
  | input {fields values isOneOf} (hf : fields = .ok values) : Shows (input fields isOneOf) (.input values isOneOf)

variable {d : DraftDetails} {details : TypeDetails}

theorem shows_of_details (h : d.details = .ok details) : d.Shows details := by
  cases d with
  | scalar =>
    cases h
    exact .scalar
  | enum values =>
    cases h
    exact .enum
  | union members =>
    obtain ⟨names, hm, hd⟩ := bind_eq_ok_iff.1 h
    cases hd
    exact .union hm
  | input fields isOneOf =>
    obtain ⟨values, hf, hd⟩ := bind_eq_ok_iff.1 h
    cases hd
    exact .input hf
  | object interfaces fields =>
    obtain ⟨names, hi, hrest⟩ := bind_eq_ok_iff.1 h
    obtain ⟨values, hf, hd⟩ := bind_eq_ok_iff.1 hrest
    cases hd
    exact .object hi hf
  | interface interfaces fields =>
    obtain ⟨names, hi, hrest⟩ := bind_eq_ok_iff.1 h
    obtain ⟨values, hf, hd⟩ := bind_eq_ok_iff.1 hrest
    cases hd
    exact .interface hi hf

theorem isOutput_of_details (h : d.details = .ok details) : details.isOutput = d.isOutput := by
  cases shows_of_details h <;> rfl

theorem isObject_of_details (h : d.details = .ok details) : details.isObject = d.isObject := by
  cases shows_of_details h <;> rfl

end DraftDetails

/-! ## Standard types -/

namespace Standard

/-- Does the standard type under a name pass a test? -/
def typeIs (test : TypeDetails → Bool) (name : String) : Bool := (type? name).any fun t => test t.details

theorem mem_of_type? {name : String} {t : NamedType} (h : type? name = some t) : t ∈ types ∧ t.name = name :=
  ⟨List.mem_of_find?_eq_some h, by simpa using List.find?_some h⟩

theorem name_ne_empty {t : NamedType} (h : t ∈ types) : t.name ≠ "" := by
  have hall : types.all (·.name != "") = true := by decide
  simpa using List.all_eq_true.1 hall t h

/-- Standard types refer to standard types, the fields of standard types to output types. -/
theorem fields_output {t : NamedType} (h : t ∈ types) {f : OutputField} (hf : f ∈ t.details.fields) :
    typeIs (·.isOutput) f.type.base = true ∧ f.type.isProper = true := by
  have hall : (types.all fun t => t.details.fields.all fun f =>
      typeIs (·.isOutput) f.type.base && f.type.isProper) = true := by decide
  simpa using List.all_eq_true.1 (List.all_eq_true.1 hall t h) f hf

/-- No standard type is one of an input object, an interface or a union. -/
theorem isLeaf_or_isObject {t : NamedType} (h : t ∈ types) : t.details.isLeaf = true ∨ t.details.isObject = true := by
  have hall : (types.all fun t => t.details.isLeaf || t.details.isObject) = true := by decide
  simpa using List.all_eq_true.1 hall t h

theorem members_eq_nil {t : NamedType} (h : t ∈ types) : t.details.members = [] := by
  have hall : (types.all fun t => t.details.members.isEmpty) = true := by decide
  simpa using List.all_eq_true.1 hall t h

end Standard

section

variable {types : List (String × DraftDetails)} {name : String}

theorem draftDetails?_of_standard {t : NamedType} (h : Standard.type? name = some t) :
    draftDetails? types name = some (.ofDetails t.details) := by
  rw [draftDetails?, h]

theorem draftDetails?_of_own (h : Standard.type? name = none) : draftDetails? types name = types.lookup name := by
  rw [draftDetails?, h]

/-- The references of a type that is looked at are those of what is seen. -/
theorem references_eq {d : DraftDetails} {details : TypeDetails} (hd : draftDetails? types name = some d)
    (hok : d.details = .ok details) : references types name = details.references := by
  rw [references, hd, Option.map_some, hok]

theorem base_mem_references {details : TypeDetails} {f : OutputField} (hf : f ∈ details.fields) :
    f.type.base ∈ details.references := by
  cases details with
  | object interfaces fields | interface interfaces fields =>
    exact List.mem_append_right _ (List.mem_flatMap.2 ⟨f, hf, List.mem_cons_self⟩)
  | _ => cases hf

theorem members_subset_references {details : TypeDetails} : details.members ⊆ details.references := by
  cases details <;> simp [TypeDetails.members, TypeDetails.references]

end

/-! ## Sound drafts -/

/-- Does the type under a name in a draft pass a test? -/
def Draft.typeIs (draft : Draft) (test : DraftDetails → Bool) (name : String) : Bool :=
  (draftDetails? draft.types name).any test

/-- **Do the types of a draft have distinct names, and do they refer to types that are there, of the right kinds?** What
a draft says under the name of a standard type does not count. -/
structure Draft.IsSound (draft : Draft) : Prop where
  named : ∀ t ∈ draft.types, t.1 ≠ ""
  distinct : (draft.types.map (·.1)).Nodup
  output : ∀ t ∈ draft.types, Standard.type? t.1 = none → ∀ {details}, t.2.details = .ok details →
    ∀ f ∈ details.fields, draft.typeIs (·.isOutput) f.type.base = true ∧ f.type.isProper = true
  members : ∀ t ∈ draft.types, Standard.type? t.1 = none → ∀ {details}, t.2.details = .ok details →
    ∀ m ∈ details.members, draft.typeIs (·.isObject) m = true

namespace Draft

variable {draft : Draft} {schema : Schema} {name : String} {details : TypeDetails}

/-- A type under a name is a standard type or one of the draft's own. -/
theorem draftDetails?_cases {d : DraftDetails} (h : draftDetails? draft.types name = some d) :
    (∃ t ∈ Standard.types, t.name = name ∧ d = .ofDetails t.details) ∨
      Standard.type? name = none ∧ (name, d) ∈ draft.types := by
  cases hs : Standard.type? name with
  | some t =>
    rw [draftDetails?_of_standard hs] at h
    obtain ⟨hm, hname⟩ := Standard.mem_of_type? hs
    exact .inl ⟨t, hm, hname, (Option.some.inj h).symm⟩
  | none =>
    rw [draftDetails?_of_own hs, List.lookup_eq_some_iff] at h
    obtain ⟨before, after, hsplit, -⟩ := h
    exact .inr ⟨rfl, by rw [hsplit]; simp⟩

/-- Standard types keep their details in every draft. -/
theorem typeIs_of_standard {test : TypeDetails → Bool} {test' : DraftDetails → Bool}
    (ht : ∀ details, test' (.ofDetails details) = test details) (h : Standard.typeIs test name = true) :
    draft.typeIs test' name = true := by
  unfold Standard.typeIs at h
  cases hs : Standard.type? name with
  | none => simp [hs] at h
  | some t =>
    rw [typeIs, draftDetails?_of_standard hs, Option.any_some, ht]
    simpa [hs] using h

/-- Fields can have every standard type. -/
theorem isOutput_of_standard {t : NamedType} (h : Standard.type? name = some t) :
    draft.typeIs (·.isOutput) name = true := by
  refine typeIs_of_standard DraftDetails.isOutput_ofDetails ?_
  rw [Standard.typeIs, h, Option.any_some]
  rcases Standard.isLeaf_or_isObject (Standard.mem_of_type? h).1 with ht | ht
  · cases hd : t.details <;> simp_all [TypeDetails.isLeaf, TypeDetails.isOutput]
  · cases hd : t.details <;> simp_all [TypeDetails.isObject, TypeDetails.isOutput]

/-- The standard types that have parts are object types. -/
theorem isObject_of_standard {t : NamedType} (h : Standard.type? name = some t) (hl : t.details.isLeaf = false) :
    draft.typeIs (·.isObject) name = true := by
  refine typeIs_of_standard DraftDetails.isObject_ofDetails ?_
  rw [Standard.typeIs, h, Option.any_some]
  exact (Standard.isLeaf_or_isObject (Standard.mem_of_type? h).1).resolve_left (by simp [hl])

namespace IsSound

variable (hs : draft.IsSound)
include hs

theorem fields_output {d : DraftDetails} (hd : draftDetails? draft.types name = some d) (hok : d.details = .ok details)
    {f : OutputField} (hf : f ∈ details.fields) :
    draft.typeIs (·.isOutput) f.type.base = true ∧ f.type.isProper = true := by
  rcases draftDetails?_cases hd with ⟨t, ht, -, hstandard⟩ | ⟨hnew, hown⟩
  · subst hstandard
    rw [DraftDetails.details_ofDetails] at hok
    cases hok
    obtain ⟨ho, hp⟩ := Standard.fields_output ht hf
    exact ⟨typeIs_of_standard DraftDetails.isOutput_ofDetails ho, hp⟩
  · exact hs.output _ hown hnew hok f hf

theorem members_object {d : DraftDetails} (hd : draftDetails? draft.types name = some d) (hok : d.details = .ok details)
    {m : String} (hm : m ∈ details.members) : draft.typeIs (·.isObject) m = true := by
  rcases draftDetails?_cases hd with ⟨t, ht, -, hstandard⟩ | ⟨hnew, hown⟩
  · subst hstandard
    rw [DraftDetails.details_ofDetails] at hok
    cases hok
    rw [Standard.members_eq_nil ht] at hm
    cases hm
  · exact hs.members _ hown hnew hok m hm

theorem name_ne_empty {d : DraftDetails} (hd : draftDetails? draft.types name = some d) : name ≠ "" := by
  rcases draftDetails?_cases hd with ⟨t, ht, rfl, -⟩ | ⟨-, hown⟩
  · exact Standard.name_ne_empty ht
  · exact hs.named _ hown

end IsSound

/-! ## The schema of a draft -/

/-- **What a schema has of its draft**: closed names with `__Schema` among them, and the details under each name. -/
structure Yields (draft : Draft) (names : List String) (schema : Schema) : Prop where
  closed : IsClosed draft.types names []
  described : "__Schema" ∈ names
  sublist : (schema.types.map (·.name)).Sublist names
  origin : ∀ t ∈ schema.types, ∃ d, draftDetails? draft.types t.name = some d ∧ d.details = .ok t.details
  kept : ∀ name ∈ names, ∀ {d}, draftDetails? draft.types name = some d →
    ∃ details, d.details = .ok details ∧ ⟨name, details⟩ ∈ schema.types

/-- The search starts with fuel for all names. -/
theorem remaining_lt_bound (names : List String) :
    remaining draft.types names < draft.types.length + Standard.types.length + 1 := by
  have hle : remaining draft.types names ≤ (knownNames draft.types).length := List.countP_le_length
  simp only [knownNames, List.length_append, List.length_map] at hle
  omega

/-- **The schema of a draft with distinct names.** -/
theorem yields_of_schema (hd : (draft.types.map (·.1)).Nodup) (h : draft.schema = .ok schema) :
    ∃ names, draft.Yields names schema := by
  unfold Draft.schema at h
  obtain ⟨own, hown, hrest⟩ := bind_eq_ok_iff.1 h
  obtain ⟨all, hall, hafter⟩ := bind_eq_ok_iff.1 hrest
  obtain ⟨types, htypes, hschema⟩ := bind_eq_ok_iff.1 hafter
  cases hschema
  have hstart : IsClosed draft.types [] (draft.types.map (·.1)) := ⟨List.nodup_nil, by simp⟩
  obtain ⟨-, hahead, hclosed⟩ :=
    isClosed_of_collectAll (remaining_lt_bound []) hd (by simp) rfl hstart hown
  have hcollects := Searches.foldlM (searches draft.types _) (remaining_lt_bound own.names) hall
  have hdone : IsClosed draft.types all.names own.ahead := hcollects.isClosed (by simp) hclosed
  rw [hahead] at hdone
  refine ⟨all.names, hdone, ?_, ?_, fun t ht => ?_, fun name hname d hd => ?_⟩
  · have hfound := hcollects.found "__Schema" (by simp)
    rw [hahead] at hfound
    exact hfound.resolve_right List.not_mem_nil
  · refine sublist_of_filterMapM (fun name t hm => ?_) htypes
    split at hm
    · obtain ⟨details, -, ht⟩ := bind_eq_ok_iff.1 hm
      cases ht
      rfl
    · cases hm
  · obtain ⟨name, -, hm⟩ := mem_of_filterMapM htypes ht
    split at hm
    · rename_i d hd
      obtain ⟨details, hok, hnew⟩ := bind_eq_ok_iff.1 hm
      cases hnew
      exact ⟨d, hd, hok⟩
    · cases hm
  · obtain ⟨found, hm, hfound⟩ := mem_filterMapM htypes hname
    rw [hd] at hm
    obtain ⟨details, hok, hnew⟩ := bind_eq_ok_iff.1 hm
    cases hnew
    exact ⟨details, hok, hfound _ rfl⟩

namespace Yields

variable {names : List String} (hy : draft.Yields names schema)
include hy

theorem nodup : (schema.types.map (·.name)).Nodup := hy.sublist.nodup hy.closed.nodup

/-- A type of a draft that is collected is a type of its schema. -/
theorem details?_of_mem (hname : name ∈ names) {d : DraftDetails} (hd : draftDetails? draft.types name = some d) :
    ∃ details, d.details = .ok details ∧ schema.details? name = some details := by
  obtain ⟨details, hok, hm⟩ := hy.kept name hname hd
  exact ⟨details, hok, Schema.details?_of_mem hy.nodup hm⟩

theorem typeIs_of_mem (hname : name ∈ names) {test : DraftDetails → Bool} {test' : TypeDetails → Bool}
    (ht : ∀ {d : DraftDetails} {details}, d.details = .ok details → test' details = test d)
    (h : draft.typeIs test name = true) : schema.typeIs test' name = true := by
  unfold Draft.typeIs at h
  cases hd : draftDetails? draft.types name with
  | none => simp [hd] at h
  | some d =>
    obtain ⟨details, hok, hdetails⟩ := hy.details?_of_mem hname hd
    refine Schema.typeIs_iff.2 ⟨details, hdetails, ?_⟩
    rw [ht hok]
    simpa [hd] using h

/-- What a type of a schema refers to is collected. -/
theorem mem_of_reference {t : NamedType} (ht : t ∈ schema.types) {r : String} (hr : r ∈ t.details.references) :
    r ∈ names := by
  obtain ⟨d, hd, hok⟩ := hy.origin t ht
  have hname : t.name ∈ names := hy.sublist.subset (List.mem_map_of_mem ht)
  have href : r ∈ references draft.types t.name := by rwa [references_eq hd hok]
  exact (hy.closed.closed t.name hname r href).resolve_right List.not_mem_nil

/-- The standard types that `__Schema` refers to are collected. -/
theorem mem_of_described {r : String} (hr : r ∈ references [] "__Schema") : r ∈ names := by
  have href : references draft.types "__Schema" = references [] "__Schema" := rfl
  refine (hy.closed.closed "__Schema" hy.described r ?_).resolve_right List.not_mem_nil
  rwa [href]

theorem isObject_of_standard (hname : name ∈ names) (h : Standard.typeIs (·.isObject) name = true) :
    schema.isObject name = true := by
  refine hy.typeIs_of_mem hname DraftDetails.isObject_of_details ?_
  exact typeIs_of_standard DraftDetails.isObject_ofDetails h

end Yields

/-- **The schema of a sound draft is well formed.** -/
theorem IsSound.isWellFormed (hs : draft.IsSound) (h : draft.schema = .ok schema) : schema.IsWellFormed := by
  obtain ⟨names, hy⟩ := yields_of_schema hs.distinct h
  have htext : "String" ∈ names := hy.mem_of_described (by decide)
  have htypes : "__Type" ∈ names := hy.mem_of_described (by decide)
  refine ⟨fun t ht => ?_, hy.nodup, fun t ht f hf => ?_, fun t ht m hm => ?_, ?_, ?_, ?_⟩
  · obtain ⟨d, hd, -⟩ := hy.origin t ht
    exact hs.name_ne_empty hd
  · obtain ⟨d, hd, hok⟩ := hy.origin t ht
    obtain ⟨ho, hp⟩ := hs.fields_output hd hok hf
    have hbase := hy.mem_of_reference ht (base_mem_references hf)
    exact ⟨hy.typeIs_of_mem hbase DraftDetails.isOutput_of_details ho, hp⟩
  · obtain ⟨d, hd, hok⟩ := hy.origin t ht
    have hmember := hy.mem_of_reference ht (members_subset_references hm)
    exact hy.typeIs_of_mem hmember DraftDetails.isObject_of_details (hs.members_object hd hok hm)
  · obtain ⟨details, hok, hdetails⟩ := hy.details?_of_mem htext (draftDetails?_of_standard rfl)
    cases hok
    exact hdetails
  · exact hy.isObject_of_standard hy.described (by decide)
  · exact hy.isObject_of_standard htypes (by decide)

end Draft

end FixtureCheck.GraphQL
