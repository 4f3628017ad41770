import FixtureCheck.Proofs.Schema.FromDescription
import FixtureCheck.Proofs.Schema.FromDocument

/-!
# Inputs of schemas

`Schema.TakesInputs` says that arguments and input fields have input types, and that the names of input fields are names
of the grammar. Readers of documents and descriptions look at the kinds of the types of inputs, and at the names in
descriptions; the names in documents are those of tokens. So no other schemas are built
(`takesInputs_of_schemaOfText`, `takesInputs_of_schemaOfDescription`).
-/

namespace FixtureCheck.GraphQL

/-! ## Inputs -/

/-- The arguments of the fields of a type, or its input fields. -/
def TypeDetails.inputs (details : TypeDetails) : List InputValue :=
  details.fields.flatMap (·.arguments) ++ details.inputFields

/-- **Have arguments and input fields input types, and input fields names of the grammar?** -/
structure Schema.TakesInputs (schema : Schema) : Prop where
  typed : ∀ t ∈ schema.types, ∀ v ∈ t.details.inputs, schema.isInputType v.type = true
  named : ∀ t ∈ schema.types, ∀ f ∈ t.details.inputFields, IsName f.name

namespace Schema.TakesInputs

variable {schema : Schema} {name : String} {fields : List InputValue} {isOneOf : Bool}

theorem isInputType_argument (h : schema.TakesInputs) {t : NamedType} (ht : t ∈ schema.types) {field : OutputField}
    (hfield : field ∈ t.details.fields) {a : InputValue} (ha : a ∈ field.arguments) :
    schema.isInputType a.type = true :=
  h.typed t ht a (List.mem_append_left _ (List.mem_flatMap.2 ⟨field, hfield, ha⟩))

theorem isInputType (h : schema.TakesInputs) (known : schema.details? name = some (.input fields isOneOf))
    {f : InputValue} (hf : f ∈ fields) : schema.isInputType f.type = true := by
  obtain ⟨t, ht, -, hd⟩ := exists_type_of_details? known
  exact h.typed t ht f (List.mem_append_right _ (by rwa [hd]))

theorem isName (h : schema.TakesInputs) (known : schema.details? name = some (.input fields isOneOf))
    {f : InputValue} (hf : f ∈ fields) : IsName f.name := by
  obtain ⟨t, ht, -, hd⟩ := exists_type_of_details? known
  exact h.named t ht f (by rwa [hd])

end Schema.TakesInputs

theorem mem_inputs_iff {details : TypeDetails} {v : InputValue} :
    v ∈ details.inputs ↔ (∃ f ∈ details.fields, v ∈ f.arguments) ∨ v ∈ details.inputFields := by
  rw [TypeDetails.inputs, List.mem_append, List.mem_flatMap]

/-- The types of inputs are referred to. -/
theorem base_mem_references_of_mem_inputs {details : TypeDetails} {v : InputValue} (hv : v ∈ details.inputs) :
    v.type.base ∈ details.references := by
  cases details with
  | object interfaces fields | interface interfaces fields =>
    obtain ⟨f, hf, ha⟩ : ∃ f ∈ fields, v ∈ f.arguments := (mem_inputs_iff.1 hv).resolve_right List.not_mem_nil
    refine List.mem_append_right _ (List.mem_flatMap.2 ⟨f, hf, List.mem_cons_of_mem _ ?_⟩)
    exact List.mem_map.2 ⟨v, ha, rfl⟩
  | input fields isOneOf =>
    have hmem : v ∈ fields := (mem_inputs_iff.1 hv).resolve_left (by simp [TypeDetails.fields])
    exact List.mem_map.2 ⟨v, hmem, rfl⟩
  | scalar | union | enum => cases hv

namespace Standard

theorem inputs_input {t : NamedType} (h : t ∈ types) {v : InputValue} (hv : v ∈ t.details.inputs) :
    typeIs (·.isInput) v.type.base = true := by
  have hall : (types.all fun t => t.details.inputs.all fun v => typeIs (·.isInput) v.type.base) = true := by decide
  exact List.all_eq_true.1 (List.all_eq_true.1 hall t h) v hv

theorem inputFields_eq_nil {t : NamedType} (h : t ∈ types) : t.details.inputFields = [] := by
  have hall : (types.all fun t => t.details.inputFields.isEmpty) = true := by decide
  simpa using List.all_eq_true.1 hall t h

end Standard

/-! ## Drafts -/

namespace DraftDetails

theorem isInput_ofDetails (details : TypeDetails) : (ofDetails details).isInput = details.isInput := by
  cases details <;> rfl

theorem isInput_of_details {d : DraftDetails} {details : TypeDetails} (h : d.details = .ok details) :
    details.isInput = d.isInput := by
  cases shows_of_details h <;> rfl

end DraftDetails

/-- **Do the types of a draft have inputs of input types, and input fields under names of the grammar?** -/
structure Draft.TakesInputs (draft : Draft) : Prop where
  typed : ∀ t ∈ draft.types, Standard.type? t.1 = none → ∀ {details}, t.2.details = .ok details →
    ∀ v ∈ details.inputs, draft.typeIs (·.isInput) v.type.base = true
  named : ∀ t ∈ draft.types, Standard.type? t.1 = none → ∀ {details}, t.2.details = .ok details →
    ∀ f ∈ details.inputFields, IsName f.name

/-- The schema of a draft takes the inputs that the draft does. -/
theorem Draft.TakesInputs.takesInputs {draft : Draft} {schema : Schema} (hi : draft.TakesInputs)
    (hd : (draft.types.map (·.1)).Nodup) (h : draft.schema = .ok schema) : schema.TakesInputs := by
  obtain ⟨names, hy⟩ := yields_of_schema hd h
  refine ⟨fun t ht v hv => ?_, fun t ht f hf => ?_⟩
  · obtain ⟨d, hd, hok⟩ := hy.origin t ht
    have hbase := hy.mem_of_reference ht (base_mem_references_of_mem_inputs hv)
    refine hy.typeIs_of_mem hbase DraftDetails.isInput_of_details ?_
    rcases draftDetails?_cases hd with ⟨standard, hs, -, rfl⟩ | ⟨hnew, hown⟩
    · rw [DraftDetails.details_ofDetails] at hok
      rw [← Except.ok.inj hok] at hv
      exact typeIs_of_standard DraftDetails.isInput_ofDetails (Standard.inputs_input hs hv)
    · exact hi.typed _ hown hnew hok v hv
  · obtain ⟨d, hd, hok⟩ := hy.origin t ht
    rcases draftDetails?_cases hd with ⟨standard, hs, -, rfl⟩ | ⟨hnew, hown⟩
    · rw [DraftDetails.details_ofDetails] at hok
      rw [← Except.ok.inj hok, Standard.inputFields_eq_nil hs] at hf
      cases hf
    · exact hi.named _ hown hnew hok f hf

/-- Input values can have the standard types without parts. -/
theorem Draft.isInput_of_standard {draft : Draft} {name : String} {t : NamedType} (h : Standard.type? name = some t)
    (hl : t.details.isLeaf = true) : draft.typeIs (·.isInput) name = true := by
  refine typeIs_of_standard DraftDetails.isInput_ofDetails ?_
  rw [Standard.typeIs, h, Option.any_some]
  cases hd : t.details <;> simp_all [TypeDetails.isLeaf, TypeDetails.isInput]

/-! ## Documents -/

namespace TypeSystem

variable {system : TypeSystem}

/-- An input is declared with its name and with a type for input. -/
theorem of_inputValue {typeOf : String → LiteralType SchemaError} {notInput : SchemaError} {d : InputDefinition}
    {v : InputValue} (h : system.inputValue typeOf notInput d = .ok v) :
    v.name = d.name ∧ system.isInput v.type = true := by
  have hmade : ∀ default?, (do
      let isDeprecated ← system.lift (isDeprecated d.directives)
      if system.isInput d.type then return (⟨d.name, d.type, default?, isDeprecated⟩ : InputValue)
      else .error notInput) = Except.ok v → v.name = d.name ∧ system.isInput v.type = true := by
    intro default? hmade
    obtain ⟨isDeprecated, -, hdone⟩ := bind_eq_ok_iff.1 hmade
    split at hdone
    · rename_i hinput
      cases hdone
      exact ⟨rfl, hinput⟩
    · cases hdone
  unfold inputValue at h
  cases hdefault : d.default? with
  | none =>
    rw [hdefault] at h
    exact hmade none h
  | some literal =>
    rw [hdefault] at h
    obtain ⟨isFit, -, hrest⟩ := bind_eq_ok_iff.1 h
    cases isFit with
    | false => exact hmade none hrest
    | true => exact hmade _ hrest

theorem exists_of_mem_inputFields {d : TypeDefinition} {n : Nat} {fields : List InputValue}
    (h : system.inputFields n d = .ok fields) {f : InputValue} (hf : f ∈ fields) :
    system.isInput f.type = true ∧ ∃ part ∈ system.parts d, ∃ declared ∈ part.body.inputs, f.name = declared.name := by
  cases n with
  | zero =>
    rw [inputFields] at h
    cases h
  | succ n =>
    rw [inputFields] at h
    obtain ⟨declared, hmem, hdeclared⟩ := mem_of_mapM (mapError_eq_ok_iff.1 h) hf
    obtain ⟨hname, hinput⟩ := of_inputValue hdeclared
    obtain ⟨part, hpart, hin⟩ := List.mem_flatMap.1 hmem
    refine ⟨hinput, part, hpart, declared, ?_, hname⟩
    cases hbody : part.body <;> simp_all [TypeBody.inputs]

/-- The input fields of a drafted type have types for input and the names that its parts declare. -/
theorem Drafts.exists_input {d : TypeDefinition} {body : TypeBody} {drafted : DraftDetails}
    (h : Drafts system d body drafted) {details : TypeDetails} (hok : drafted.details = .ok details) {f : InputValue}
    (hf : f ∈ details.inputFields) :
    system.isInput f.type = true ∧ ∃ part ∈ system.parts d, ∃ declared ∈ part.body.inputs, f.name = declared.name := by
  have hshows := DraftDetails.shows_of_details hok
  cases h with
  | input =>
    cases hshows with
    | input hfields => exact exists_of_mem_inputFields hfields hf
  | scalar | enum | union | object | interface =>
    cases hshows
    cases hf

/-- The inputs of a drafted type have types for input. -/
theorem Drafts.isInput {d : TypeDefinition} {body : TypeBody} {drafted : DraftDetails}
    (h : Drafts system d body drafted) {details : TypeDetails} (hok : drafted.details = .ok details) {v : InputValue}
    (hv : v ∈ details.inputs) : system.isInput v.type = true := by
  rcases mem_inputs_iff.1 hv with ⟨f, hf, ha⟩ | hf
  · obtain ⟨part, -, declared, -, hmade⟩ := h.exists_field hok hf
    obtain ⟨-, -, harguments⟩ := of_outputField hmade
    obtain ⟨argument, -, hargument⟩ := mem_of_mapM harguments ha
    exact (of_inputValue hargument).2
  · exact (h.exists_input hok hf).1

namespace DraftedIn

variable {draft : Draft} (hd : DraftedIn system draft)
include hd

theorem isInput_of_isInput {type : TypeRef} (h : system.isInput type = true) :
    draft.typeIs (·.isInput) type.base = true := by
  cases hs : Standard.type? type.base with
  | some t =>
    refine Draft.isInput_of_standard hs ?_
    rw [isInput, kind?, hs] at h
    cases ht : t.details <;> simp_all [TypeDetails.isLeaf]
  | none =>
    cases hkind : system.kind? type.base with
    | none =>
      rw [isInput, hkind] at h
      cases h
    | some body =>
      rw [isInput, hkind] at h
      obtain ⟨d, drafted, hdrafts, hdraft⟩ := hd.exists_drafts_of_kind? hs hkind
      rw [Draft.typeIs, hdraft, Option.any_some]
      cases hdrafts with
      | scalar | enum | input => rfl
      | object | interface | union => cases h

/-- The draft of a written document takes inputs as it should. -/
theorem takesInputs (hw : system.document.IsWritten) : draft.TakesInputs := by
  refine ⟨fun entry he hs details hok v hv => ?_, fun entry he hs details hok f hf => ?_⟩
  · obtain ⟨d, -, hname, hdrafted⟩ := hd.exists_definition he
    rw [← hname] at hs
    exact hd.isInput_of_isInput ((drafts_of_draftDetails hs hdrafted).isInput hok hv)
  · obtain ⟨d, hin, hname, hdrafted⟩ := hd.exists_definition he
    rw [← hname] at hs
    obtain ⟨-, part, hpart, declared, hdeclared, hnamed⟩ := (drafts_of_draftDetails hs hdrafted).exists_input hok hf
    obtain ⟨definition, hmem, htypePart⟩ := exists_typePart_of_mem_parts hin hpart
    rw [hnamed]
    exact (hw definition hmem part htypePart).body.inputs declared hdeclared

end DraftedIn

end TypeSystem

/-- **Every schema that a text defines takes inputs as it should.** -/
theorem takesInputs_of_schemaOfText {text : String} {schema : Schema} (h : schemaOfText text = .ok schema) :
    schema.TakesInputs := by
  obtain ⟨document, hparse, hschema⟩ := bind_eq_ok_iff.1 h
  have hw : document.IsWritten := isWritten_of_parseDocument (mapError_eq_ok_iff.1 hparse)
  obtain ⟨draft, hd, hdraft⟩ := TypeSystem.exists_draft hschema
  exact (hd.takesInputs hw).takesInputs hd.nodup_types hdraft

/-! ## Descriptions -/

namespace Description

/-- Is a type one of the listing that input values can have? -/
structure IsInputType (listing : Listing) (type : TypeRef) : Prop where
  listed : (listing.types.lookup type.base).isSome = true
  input : listing.isOf ["SCALAR", "ENUM", "INPUT_OBJECT"] type = true

section

variable {listing : Listing}

theorem isInputType_of_inputValue {typeOf : String → LiteralType SchemaError} {label owner : String} {part : Json}
    {v : InputValue} (h : inputValue listing typeOf label owner part = .ok v) : IsInputType listing v.type := by
  obtain ⟨reference, -, hreference⟩ := bind_eq_ok_iff.1 h
  obtain ⟨type, htype, hguarded⟩ := bind_eq_ok_iff.1 hreference
  obtain ⟨hinput, hrest⟩ := of_guard hguarded
  obtain ⟨text, -, hdefault⟩ := bind_eq_ok_iff.1 hrest
  obtain ⟨value, -, hchecks⟩ := bind_eq_ok_iff.1 hdefault
  obtain ⟨_, -, hcheck⟩ := bind_eq_ok_iff.1 hchecks
  obtain ⟨_, -, hreason⟩ := bind_eq_ok_iff.1 hcheck
  obtain ⟨reason, -, hdone⟩ := bind_eq_ok_iff.1 hreason
  cases hdone
  exact ⟨(of_typeRef reference htype).2, by simpa using hinput⟩

/-- Inputs that are made under their names have types for input and names of the grammar. -/
theorem of_mem_withNames {typeOf : String → LiteralType SchemaError} {label owner : String} {parts : Json}
    {entries : List (Json × InputValue)} {notTexts : SchemaError} {made : List (String × InputValue)}
    (ht : tableOf (inputValue listing typeOf label owner) parts = .ok entries)
    (hn : Description.named notTexts entries = .ok made) {v : InputValue} (hv : v ∈ withNames made) :
    IsInputType listing v.type ∧ IsName v.name := by
  obtain ⟨hentries, hdistinct⟩ := tableOf_spec ht
  obtain ⟨⟨key, value⟩, hmem, rfl⟩ := List.mem_map.1 hv
  obtain ⟨hold, hname⟩ := (named_spec hn hdistinct).1 _ hmem
  obtain ⟨part, -, hpart⟩ := hentries _ hold
  have hmade : IsInputType listing value.type := isInputType_of_inputValue hpart
  exact ⟨hmade, hname⟩

theorem isInputType_of_arguments {notTexts : String} {parts : Json} {as : List InputValue}
    (h : arguments listing notTexts parts = .ok as) {a : InputValue} (ha : a ∈ as) : IsInputType listing a.type := by
  obtain ⟨entries, hentries, hnames⟩ := bind_eq_ok_iff.1 h
  obtain ⟨made, hmade, hdone⟩ := bind_eq_ok_iff.1 hnames
  cases hdone
  exact (of_mem_withNames hentries hmade ha).1

theorem of_inputFields {n : Nat} {type : String} {parts : Json} {fields : List InputValue}
    (h : inputFields listing n type parts = .ok fields) {f : InputValue} (hf : f ∈ fields) :
    IsInputType listing f.type ∧ IsName f.name := by
  cases n with
  | zero =>
    rw [inputFields] at h
    cases h
  | succ n =>
    rw [inputFields] at h
    obtain ⟨entries, hentries, hnames⟩ := bind_eq_ok_iff.1 h
    obtain ⟨made, hmade, hdone⟩ := bind_eq_ok_iff.1 hnames
    cases hdone
    exact of_mem_withNames (mapError_eq_ok_iff.1 hentries) hmade hf

/-- The input fields that are promised have types for input and names of the grammar. -/
theorem Promises.of_inputField {description : Json} {kind : String} {promised : Promise}
    (h : Promises description kind promised) {n : Nat} {details : TypeDetails}
    (hok : (promised listing n).details = .ok details) {f : InputValue} (hf : f ∈ details.inputFields) :
    IsInputType listing f.type ∧ IsName f.name := by
  have hshows := DraftDetails.shows_of_details hok
  cases h with
  | input type parts isOneOf =>
    cases hshows with
    | input hfields => exact of_inputFields hfields hf
  | scalar | enum | union | object | interface =>
    cases hshows
    cases hf

/-- The inputs that are promised have types for input. -/
theorem Promises.isInputType {description : Json} {kind : String} {promised : Promise}
    (h : Promises description kind promised) {n : Nat} {details : TypeDetails}
    (hok : (promised listing n).details = .ok details) {v : InputValue} (hv : v ∈ details.inputs) :
    IsInputType listing v.type := by
  rcases mem_inputs_iff.1 hv with ⟨f, hf, ha⟩ | hf
  · obtain ⟨part, made, hmade, hsame⟩ := h.exists_field hok hf
    obtain ⟨-, notTexts, parts, harguments⟩ := of_outputField hmade
    rw [hsame] at ha
    exact isInputType_of_arguments harguments ha
  · exact (h.of_inputField hok hf).1

end

namespace ArePromised

variable {promises : List (String × Json × Promise)} (hp : ArePromised promises) {draft : Draft}
  (hd : draft.types = promises.map fun (key, _, promised) =>
    (key, promised (listingOf promises) (bound (listingOf promises))))
include hp hd

theorem isInput_of_isInputType {type : TypeRef} (h : IsInputType (listingOf promises) type) :
    draft.typeIs (·.isInput) type.base = true := by
  have hinput := h.input
  cases hs : Standard.type? type.base with
  | some t =>
    refine Draft.isInput_of_standard hs ?_
    rw [Listing.isOf, Listing.kind?, hs] at hinput
    cases ht : t.details <;> simp_all [TypeDetails.isLeaf]
  | none =>
    obtain ⟨part, kind, promised, hm, hpromises, hkind⟩ := hp.exists_promises hs h.listed
    rw [Listing.isOf, hkind, Option.any_some] at hinput
    rw [Draft.typeIs, hp.draftDetails?_eq hd hs hm, Option.any_some]
    cases hpromises with
    | scalar | enum | input => rfl
    | object | interface | union => simp at hinput

/-- The draft of a description takes inputs as it should. -/
theorem takesInputs : draft.TakesInputs := by
  have hentry : ∀ t ∈ draft.types, Standard.type? t.1 = none → ∃ part kind promised, Promises part kind promised ∧
      t.2 = promised (listingOf promises) (bound (listingOf promises)) := by
    intro t ht hs
    rw [hd] at ht
    obtain ⟨⟨key, part, promised⟩, hm, rfl⟩ := List.mem_map.1 ht
    obtain ⟨hname, hpromise⟩ := hp.promised hm
    obtain ⟨kind, -, hpromises⟩ := promises_of_promise hname hs hpromise
    exact ⟨part, kind, promised, hpromises, rfl⟩
  refine ⟨fun t ht hs details hok v hv => ?_, fun t ht hs details hok f hf => ?_⟩
  · obtain ⟨part, kind, promised, hpromises, hdetails⟩ := hentry t ht hs
    rw [hdetails] at hok
    exact hp.isInput_of_isInputType hd (hpromises.isInputType hok hv)
  · obtain ⟨part, kind, promised, hpromises, hdetails⟩ := hentry t ht hs
    rw [hdetails] at hok
    exact (hpromises.of_inputField hok hf).2

end ArePromised

end Description

/-- **Every schema that an answer describes takes inputs as it should.** -/
theorem takesInputs_of_schemaOfDescription {answer : Json} {schema : Schema}
    (h : schemaOfDescription answer = .ok schema) : schema.TakesInputs := by
  obtain ⟨data, -, hrest⟩ := bind_eq_ok_iff.1 h
  split at hrest
  · obtain ⟨promises, draft, hp, hd, hdraft⟩ := Description.exists_draft hrest
    exact (hp.takesInputs hd).takesInputs (hp.nodup_types hd) hdraft
  · cases hrest

end FixtureCheck.GraphQL
