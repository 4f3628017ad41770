import FixtureCheck.GraphQL.Schema.FromDocument
import FixtureCheck.Proofs.Query.Findings
import FixtureCheck.Proofs.Schema.Draft
import FixtureCheck.Proofs.Syntax.Written

/-!
# Schemas of documents are well formed

A document that keeps the rules for type systems defines types with distinct names and names only types that are known.
Its readers look at the kinds of the types that fields and unions refer to. So the draft of a document is sound
(`TypeSystem.isSound`), and its schema is well formed (`TypeSystem.isWellFormed`). What the grammar adds is that names
begin with a letter or an underscore, thus are not empty, and that no type has two marks for non-null
(`Document.IsWritten`).
-/

namespace FixtureCheck.GraphQL

/-! ## Type systems without findings -/

section

variable {document : Document}

/-- No rule for type systems finds anything in a document without errors. -/
theorem silent_of_definitionErrors (h : definitionErrors document = []) (rule : Rule) (hr : rule ∈ definitionRules) :
    rule emptySchema document (visits emptySchema document).zipIdx = [] :=
  eq_nil_of_findings (List.map_eq_nil_iff.1 h) hr

/-- Types have distinct names. -/
theorem nodup_definedTypes (h : definitionErrors document = []) : (definedTypes document).Nodup := by
  have hsilent := silent_of_definitionErrors h uniqueTypeNames (by simp [definitionRules])
  refine nodup_of_repeats_definitions (fun visit d hv => ?_) hsilent
  rw [hv]
  cases d <;> rfl

/-- The names of types are those of standard types and of types that the document defines. -/
theorem mem_of_typeName_visited (h : definitionErrors document = []) {visit : Visit}
    (hv : visit ∈ visits emptySchema document) (he : visit.entering = true) {name : String}
    (hn : visit.node = .typeName name) : name ∈ standardNames ∨ name ∈ definedTypes document := by
  have hsilent := silent_of_definitionErrors h knownTypeNames (by simp [definitionRules])
  have hnone := eachEntry_eq_nil hsilent hv he
  rw [hn] at hnone
  simp only at hnone
  split at hnone
  · rename_i hknown
    simp only [emptySchema, List.map_nil, List.nil_append, List.contains_eq_mem, Bool.or_eq_true, decide_eq_true_eq,
      Bool.and_eq_true] at hknown
    exact hknown.symm.imp_left (·.2)
  · cases hnone

theorem mem_typeVisits_of_field {schema : Schema} {position : Position} (isExtension : Bool) {t : TypeDefinition}
    {f : FieldDefinition} (hf : f ∈ t.body.fields) {visit : Visit}
    (hv : visit ∈ fieldDefinitionVisits schema position f) : visit ∈ typeVisits schema isExtension position t := by
  unfold typeVisits
  cases hb : t.body with
  | object interfaces fields | interface interfaces fields =>
    rw [hb] at hf
    exact List.mem_append_right _ (List.mem_flatMap.2 ⟨f, hf, hv⟩)
  | _ =>
    rw [hb] at hf
    cases hf

/-- The types of fields are known. -/
theorem mem_of_field (h : definitionErrors document = []) {d : Definition} (hd : d ∈ document) {t : TypeDefinition}
    (ht : t ∈ d.typePart?) {f : FieldDefinition} (hf : f ∈ t.body.fields) :
    f.type.base ∈ standardNames ∨ f.type.base ∈ definedTypes document := by
  let position := partsPosition emptySchema document d
  let inner := position.below (.fieldDefinition f) position.scope
  have hleaf : ∃ visit ∈ inner.leaf (.typeName f.type.base),
      visit.entering = true ∧ visit.node = .typeName f.type.base := ⟨_, mem_around.2 (.inl rfl), rfl, rfl⟩
  obtain ⟨visit, hin, he, hn⟩ := hleaf
  have hv : visit ∈ fieldDefinitionVisits emptySchema position f :=
    mem_around.2 (.inr (.inl (List.mem_append_left _ (List.mem_append_right _ hin))))
  have hpart : visit ∈ definitionParts emptySchema position d := by
    cases d with
    | type t' =>
      cases ht
      exact mem_typeVisits_of_field false hf hv
    | typeExtension t' =>
      cases ht
      exact mem_typeVisits_of_field true hf hv
    | _ => cases ht
  exact mem_of_typeName_visited h (mem_visits_of_part hd hpart) he hn

end

/-! ## Drafts of type systems -/

namespace TypeSystem

variable {system : TypeSystem} {types : List (String × DraftDetails)} {name : String}

theorem mem_definitions {d : TypeDefinition} : d ∈ system.definitions ↔ Definition.type d ∈ system.document := by
  constructor
  · intro h
    obtain ⟨definition, hm, hd⟩ := List.mem_filterMap.1 h
    cases definition <;> cases hd
    exact hm
  · exact fun h => List.mem_filterMap.2 ⟨_, h, rfl⟩

theorem map_name_definitions : system.definitions.map (·.name) = definedTypes system.document := by
  rw [definitions, definedTypes, List.map_filterMap]
  congr 1
  funext d
  cases d <;> rfl

/-- A type and its extensions are parts of the document. -/
theorem exists_typePart_of_mem_parts {d part : TypeDefinition} (hd : d ∈ system.definitions)
    (hp : part ∈ system.parts d) : ∃ definition ∈ system.document, part ∈ definition.typePart? := by
  rcases List.mem_cons.1 hp with rfl | hp
  · exact ⟨_, mem_definitions.1 hd, rfl⟩
  · obtain ⟨definition, hm, he⟩ := List.mem_filterMap.1 hp
    cases definition with
    | typeExtension t =>
      simp only [Option.ite_none_right_eq_some, Option.some.injEq] at he
      exact ⟨_, hm, Option.mem_def.2 (congrArg some he.2)⟩
    | _ => cases he

/-- What a definition with a certain body is drafted as. -/
inductive Drafts (system : TypeSystem) (d : TypeDefinition) : TypeBody → DraftDetails → Prop
  | scalar : Drafts system d .scalar .scalar
  | object {names fields} :
    Drafts system d (.object names fields) (.object (system.interfaces d) (system.outputFields d))
  | interface {names fields} :
    Drafts system d (.interface names fields) (.interface (system.interfaces d) (system.outputFields d))
  | union {names} : Drafts system d (.union names) (.union (system.members d))
  | enum {values values'} : Drafts system d (.enum values) (.enum values')
  | input {fields} : Drafts system d (.input fields) (.input (system.inputFields system.bound d) d.isOneOf)

theorem drafts_of_draftDetails {d : TypeDefinition} {drafted : DraftDetails} (hs : Standard.type? d.name = none)
    (h : system.draftDetails d = .ok drafted) : Drafts system d d.body drafted := by
  unfold draftDetails at h
  rw [hs] at h
  cases hb : d.body with
  | scalar =>
    rw [hb] at h
    obtain ⟨-, -, hd⟩ := bind_eq_ok_iff.1 h
    cases hd
    exact .scalar
  | enum values =>
    rw [hb] at h
    obtain ⟨values', -, hd⟩ := bind_eq_ok_iff.1 h
    cases hd
    exact .enum
  | object names fields =>
    rw [hb] at h
    cases h
    exact .object
  | interface names fields =>
    rw [hb] at h
    cases h
    exact .interface
  | union names =>
    rw [hb] at h
    cases h
    exact .union
  | input fields =>
    rw [hb] at h
    cases h
    exact .input

/-! ### Fields and members -/

/-- A field has the type that is declared, one for output, and the arguments that are declared. -/
theorem of_outputField {declared : FieldDefinition} {f : OutputField} (h : system.outputField declared = .ok f) :
    declared.type = f.type ∧ system.isOutput f.type = true ∧ system.arguments declared.arguments = .ok f.arguments := by
  obtain ⟨arguments, harguments, hrest⟩ := bind_eq_ok_iff.1 h
  obtain ⟨-, -, hlast⟩ := bind_eq_ok_iff.1 hrest
  split at hlast
  · rename_i ho
    cases hlast
    exact ⟨rfl, ho, harguments⟩
  · cases hlast

/-- The fields of a type are those that its parts declare. -/
theorem exists_of_outputFields {d : TypeDefinition} {fields : List OutputField} (h : system.outputFields d = .ok fields)
    {f : OutputField} (hf : f ∈ fields) :
    ∃ part ∈ system.parts d, ∃ declared ∈ part.body.fields, system.outputField declared = .ok f := by
  unfold outputFields at h
  obtain ⟨declared, hm, hdeclared⟩ := mem_of_mapM (mapError_eq_ok_iff.1 h) hf
  obtain ⟨part, hp, hin⟩ := List.mem_flatMap.1 hm
  exact ⟨part, hp, declared, hin, hdeclared⟩

theorem Drafts.exists_field {d : TypeDefinition} {body : TypeBody} {drafted : DraftDetails}
    (h : Drafts system d body drafted) {details : TypeDetails} (hok : drafted.details = .ok details)
    {f : OutputField} (hf : f ∈ details.fields) :
    ∃ part ∈ system.parts d, ∃ declared ∈ part.body.fields, system.outputField declared = .ok f := by
  have hshows := DraftDetails.shows_of_details hok
  cases h with
  | object =>
    cases hshows with
    | object hnames hfields => exact exists_of_outputFields hfields hf
  | interface =>
    cases hshows with
    | interface hnames hfields => exact exists_of_outputFields hfields hf
  | scalar | enum | union | input =>
    cases hshows
    cases hf

/-- The members of a union type are known object types. -/
theorem kind?_of_mem_members {d : TypeDefinition} {names : List String} (h : system.members d = .ok names) {m : String}
    (hm : m ∈ names) : ∃ interfaces fields, system.kind? m = some (.object interfaces fields) := by
  unfold members at h
  simp only at h
  split at h
  · rename_i hall
    cases h
    have hkind := List.all_eq_true.1 hall m hm
    split at hkind
    · exact ⟨_, _, ‹_›⟩
    · cases hkind
  · cases h

theorem Drafts.kind?_member {d : TypeDefinition} {body : TypeBody} {drafted : DraftDetails}
    (h : Drafts system d body drafted) {details : TypeDetails} (hok : drafted.details = .ok details) {m : String}
    (hm : m ∈ details.members) : ∃ interfaces fields, system.kind? m = some (.object interfaces fields) := by
  have hshows := DraftDetails.shows_of_details hok
  cases h with
  | union =>
    cases hshows with
    | union hmembers => exact kind?_of_mem_members hmembers hm
  | scalar | enum | input | object | interface =>
    cases hshows
    cases hm

/-! ### Known kinds -/

/-- A name that is no standard one is known only if the document defines a type under it. -/
theorem exists_kind? (hs : Standard.type? name = none)
    (hk : name ∈ standardNames ∨ name ∈ definedTypes system.document) : ∃ body, system.kind? name = some body := by
  have hown : name ∈ definedTypes system.document := by
    refine hk.resolve_left fun hstandard => ?_
    obtain ⟨t, ht, hname⟩ := List.mem_map.1 hstandard
    exact absurd hname (by simpa using List.find?_eq_none.1 hs t ht)
  rw [← map_name_definitions] at hown
  obtain ⟨d, hm, hname⟩ := List.mem_map.1 hown
  have hsome : (system.definitions.find? (·.name == name)).isSome := List.find?_isSome.2 ⟨d, hm, by simpa using hname⟩
  obtain ⟨d', hd'⟩ := Option.isSome_iff_exists.1 hsome
  exact ⟨d'.body, by rw [kind?, hs, hd', Option.map_some]⟩

/-- The draft of a type system lists its definitions. -/
structure DraftedIn (system : TypeSystem) (draft : Draft) : Prop where
  silent : definitionErrors system.document = []
  types : system.definitions.mapM (fun d => return (d.name, ← system.draftDetails d)) = .ok draft.types

namespace DraftedIn

variable {draft : Draft} (hd : DraftedIn system draft)
include hd

theorem map_fst_types : draft.types.map (·.1) = definedTypes system.document := by
  rw [← map_name_definitions]
  refine map_of_mapM (fun d entry he => ?_) hd.types
  obtain ⟨drafted, -, h⟩ := bind_eq_ok_iff.1 he
  cases h
  rfl

theorem nodup_types : (draft.types.map (·.1)).Nodup := by
  rw [hd.map_fst_types]
  exact nodup_definedTypes hd.silent

/-- A type that a document defines, under a name that is no standard one, is drafted under its name. -/
theorem exists_draftDetails? {d : TypeDefinition} (hm : d ∈ system.definitions) (hs : Standard.type? d.name = none) :
    ∃ drafted, Drafts system d d.body drafted ∧ draftDetails? draft.types d.name = some drafted := by
  obtain ⟨entry, hin, hentry⟩ := mem_mapM hd.types hm
  obtain ⟨drafted, hdrafted, he⟩ := bind_eq_ok_iff.1 hentry
  cases he
  refine ⟨drafted, drafts_of_draftDetails hs hdrafted, ?_⟩
  rw [draftDetails?_of_own hs]
  exact lookup_of_mem hd.nodup_types hin

/-- A kind that fits what a type is drafted as. -/
theorem exists_drafts_of_kind? {body : TypeBody} (hs : Standard.type? name = none) (h : system.kind? name = some body) :
    ∃ d drafted, Drafts system d body drafted ∧ draftDetails? draft.types name = some drafted := by
  rw [kind?, hs] at h
  obtain ⟨d, hfind, rfl⟩ := Option.map_eq_some_iff.1 h
  have hname : d.name = name := by simpa using List.find?_some hfind
  subst hname
  exact ⟨d, hd.exists_draftDetails? (List.mem_of_find?_eq_some hfind) hs⟩

theorem isObject_of_kind? {interfaces : List String} {fields : List FieldDefinition}
    (h : system.kind? name = some (.object interfaces fields)) : draft.typeIs (·.isObject) name = true := by
  cases hs : Standard.type? name with
  | some t =>
    refine Draft.isObject_of_standard hs ?_
    rw [kind?, hs] at h
    cases ht : t.details <;> simp_all [TypeDetails.isLeaf]
  | none =>
    obtain ⟨d, drafted, hdrafts, hdraft⟩ := hd.exists_drafts_of_kind? hs h
    cases hdrafts
    rw [Draft.typeIs, hdraft]
    rfl

theorem isOutput_of_isOutput {type : TypeRef}
    (hk : type.base ∈ standardNames ∨ type.base ∈ definedTypes system.document) (h : system.isOutput type = true) :
    draft.typeIs (·.isOutput) type.base = true := by
  cases hs : Standard.type? type.base with
  | some t => exact Draft.isOutput_of_standard hs
  | none =>
    obtain ⟨body, hbody⟩ := exists_kind? hs hk
    obtain ⟨d, drafted, hdrafts, hdraft⟩ := hd.exists_drafts_of_kind? hs hbody
    rw [isOutput, hbody] at h
    rw [Draft.typeIs, hdraft, Option.any_some]
    cases hdrafts with
    | input => cases h
    | _ => rfl

theorem exists_definition {entry : String × DraftDetails} (he : entry ∈ draft.types) :
    ∃ d ∈ system.definitions, d.name = entry.1 ∧ system.draftDetails d = .ok entry.2 := by
  obtain ⟨d, hm, hentry⟩ := mem_of_mapM hd.types he
  obtain ⟨drafted, hdrafted, h⟩ := bind_eq_ok_iff.1 hentry
  cases h
  exact ⟨d, hm, rfl, hdrafted⟩

/-- The fields of a drafted type have types that are there, of the right kind. -/
theorem output_of_draftDetails (hw : system.document.IsWritten) {d : TypeDefinition} (hm : d ∈ system.definitions)
    (hs : Standard.type? d.name = none) {drafted : DraftDetails} (hdrafted : system.draftDetails d = .ok drafted)
    {details : TypeDetails} (hok : drafted.details = .ok details) {f : OutputField} (hf : f ∈ details.fields) :
    draft.typeIs (·.isOutput) f.type.base = true ∧ f.type.isProper = true := by
  obtain ⟨part, hpart, declared, hdeclared, hmade⟩ := (drafts_of_draftDetails hs hdrafted).exists_field hok hf
  obtain ⟨htype, ho, -⟩ := of_outputField hmade
  obtain ⟨definition, hin, htypePart⟩ := exists_typePart_of_mem_parts hm hpart
  have hk := mem_of_field hd.silent hin htypePart hdeclared
  have hproper := (hw definition hin part htypePart).body.proper declared hdeclared
  rw [htype] at hk hproper
  exact ⟨hd.isOutput_of_isOutput hk ho, hproper⟩

/-- **The draft of a written document without errors is sound.** -/
theorem isSound (hw : system.document.IsWritten) : draft.IsSound := by
  refine ⟨fun entry he => ?_, hd.nodup_types, fun entry he hs details hok f hf => ?_,
    fun entry he hs details hok m hm => ?_⟩
  · obtain ⟨d, hin, hname, -⟩ := hd.exists_definition he
    rw [← hname]
    exact (hw (.type d) (mem_definitions.1 hin) d rfl).named.ne_empty
  · obtain ⟨d, hin, hname, hdrafted⟩ := hd.exists_definition he
    rw [← hname] at hs
    exact hd.output_of_draftDetails hw hin hs hdrafted hok hf
  · obtain ⟨d, -, hname, hdrafted⟩ := hd.exists_definition he
    rw [← hname] at hs
    obtain ⟨interfaces, fields, hkind⟩ := (drafts_of_draftDetails hs hdrafted).kind?_member hok hm
    exact hd.isObject_of_kind? hkind

end DraftedIn

/-- The schema of a type system is that of a draft of it. -/
theorem exists_draft {schema : Schema} (h : system.schema = .ok schema) :
    ∃ draft, DraftedIn system draft ∧ draft.schema = .ok schema := by
  unfold TypeSystem.schema at h
  cases hsilent : definitionErrors system.document with
  | cons message rest =>
    rw [hsilent] at h
    cases h
  | nil =>
    rw [hsilent] at h
    obtain ⟨types, htypes, hrest⟩ := bind_eq_ok_iff.1 h
    obtain ⟨own, -, hdraft⟩ := bind_eq_ok_iff.1 hrest
    exact ⟨_, ⟨hsilent, htypes⟩, hdraft⟩

/-- **The schema of a written document is well formed.** -/
theorem isWellFormed (hw : system.document.IsWritten) {schema : Schema} (h : system.schema = .ok schema) :
    schema.IsWellFormed := by
  obtain ⟨draft, hdrafted, hdraft⟩ := exists_draft h
  exact (hdrafted.isSound hw).isWellFormed hdraft

end TypeSystem

/-- **Every schema that a text defines is well formed.** -/
theorem isWellFormed_of_schemaOfText {text : String} {schema : Schema} (h : schemaOfText text = .ok schema) :
    schema.IsWellFormed := by
  obtain ⟨document, hparse, hschema⟩ := bind_eq_ok_iff.1 h
  exact TypeSystem.isWellFormed (isWritten_of_parseDocument (mapError_eq_ok_iff.1 hparse)) hschema

end FixtureCheck.GraphQL
