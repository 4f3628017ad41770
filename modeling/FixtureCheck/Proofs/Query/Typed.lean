import FixtureCheck.GraphQL.Inlining
import FixtureCheck.Proofs.Except
import FixtureCheck.Proofs.Query.Findings
import FixtureCheck.Proofs.Schema.WellFormed
import Mathlib.Tactic.ByContra

/-!
# Typed selections

Rules keep track of the types around each part of a document. `AreTyped` says what they come to, without the walk: every
selected field is a field of its type, exactly the fields of types with parts have selections, which are typed under
that type, and type conditions are types with fields. The selection sets of an accepted document are typed
(`Accepts.areTyped_operation`, `Accepts.areTyped_fragment`), and inlining keeps that (`areTyped_inlineSelections`).
-/

namespace FixtureCheck.GraphQL

mutual

/-- Is a selection on the type `parent` typed? Spreads are, whatever they refer to. -/
def Selection.IsTyped (schema : Schema) (parent : String) : Selection → Prop
  | .field f selections => ∃ definition, schema.fieldOf? (some parent) f.name = some definition ∧
      (schema.isLeaf definition.type.base = true ∧ selections = [] ∨
        schema.isComposite definition.type.base = true ∧ selections ≠ [] ∧
          AreTyped schema definition.type.base selections)
  | .spread .. => True
  | .inline condition _ selections =>
    (∀ c ∈ condition, schema.isComposite c = true) ∧ AreTyped schema (condition.getD parent) selections

/-- **Are selections in a row on the type `parent` typed?** -/
def AreTyped (schema : Schema) (parent : String) : List Selection → Prop
  | [] => True
  | selection :: rest => selection.IsTyped schema parent ∧ AreTyped schema parent rest

end

/-! ## Selections of accepted documents -/

/-- Is a position in a selection set on a type, outside type systems? -/
structure Position.IsOn (schema : Schema) (position : Position) (parent : String) : Prop where
  selects : position.scope.parent = some parent
  type : position.scope.type.map (·.base) = some parent
  composite : schema.isComposite parent = true
  query : position.inTypeSystem = false

section

variable {schema : Schema} {document : Document} {position : Position}

/-- A selection set is on the type of the scope around it. -/
theorem isOn_inSelectionSet (position : Position) (scope : Scope) (node : Node) {name : String}
    (hq : position.inTypeSystem = false)
    (ht : scope.type.map (·.base) = some name) (hc : schema.isComposite name = true) :
    (position.below node (scope.inSelectionSet schema)).IsOn schema name := by
  refine ⟨?_, ht, hc, hq⟩
  show (scope.type.map (·.base)).filter schema.isComposite = some name
  rw [ht]
  simp [hc]

/-- The scope of an inline fragment has the type of its condition, or else that of the scope around. -/
theorem type_inInline {scope : Scope} {condition : Option String} {parent : String}
    (ht : scope.type.map (·.base) = some parent) (hc : ∀ c ∈ condition, schema.isComposite c = true) :
    (scope.inInline schema condition).type.map (·.base) = some (condition.getD parent) := by
  cases condition with
  | none =>
    show _ = some parent
    rw [← ht]
    show (scope.type.map fun t => TypeRef.named t.base).map (·.base) = scope.type.map (·.base)
    cases scope.type <;> rfl
  | some c =>
    have ho := Schema.isOutput_of_isComposite (hc c rfl)
    simp [Scope.inInline, Scope.inCondition, Scope.outputNamed, ho, TypeRef.base]

/-- A type condition that is known and not flat is a type with fields. -/
theorem isComposite_of_condition {name : String} (hk : (schema.type? name).isSome)
    (hf : schema.typeIs (!·.isComposite) name = false) : schema.isComposite name = true := by
  obtain ⟨t, ht⟩ := Option.isSome_iff_exists.1 hk
  have hd : schema.details? name = some t.details := by rw [Schema.details?, ht]; rfl
  simpa [Schema.isComposite, Schema.typeIs, hd] using hf

namespace Accepts

variable (h : Accepts schema document)

include h

/-- An accepted document defines no types. -/
theorem definedTypes_eq_nil : definedTypes document = [] := by
  rw [definedTypes, List.filterMap_eq_nil_iff]
  intro d hd
  have hnot := h.isTypeSystem_eq_false hd
  cases d <;> simp_all [Definition.isTypeSystem]

/-- The types that the queries of an accepted document name are known. -/
theorem type?_of_typeName {visit : Visit} (hv : visit ∈ visits schema document) (he : visit.entering = true)
    {name : String} (hn : visit.node = .typeName name) (hq : visit.inTypeSystem = false) :
    (schema.type? name).isSome := by
  have hknown := h.entry knownTypeNames (by simp [queryRules]) rfl hv he
  simp only [hn, hq, h.definedTypes_eq_nil, List.append_nil, Bool.false_and, Bool.or_false] at hknown
  have hmem : (schema.types.map (·.name)).contains name = true := by
    by_contra hno
    rw [if_neg hno] at hknown
    cases hknown
  rw [List.contains_iff_mem, List.mem_map] at hmem
  obtain ⟨t, ht, rfl⟩ := hmem
  exact List.find?_isSome.2 ⟨t, ht, by simp⟩

/-- The fields that an accepted document selects are there, and exactly those with parts have selections. -/
theorem field_visited (hw : schema.IsWellFormed) {visit : Visit} (hv : visit ∈ visits schema document)
    (he : visit.entering = true) {f : Field} {selections : List Selection} (hn : visit.node = .field f selections)
    {parent : String} (hp : visit.scope.parent = some parent)
    (hf : visit.scope.field = schema.fieldOf? (some parent) f.name)
    (ht : visit.scope.type = visit.scope.field.map (·.type)) :
    ∃ definition, schema.fieldOf? (some parent) f.name = some definition ∧
      (schema.isLeaf definition.type.base = true ∧ selections = [] ∨
        schema.isComposite definition.type.base = true ∧ selections ≠ []) := by
  have hcorrect := h.entry fieldsOnCorrectType (by simp [queryRules]) rfl hv he
  have hleafs := h.entry scalarLeafs (by simp [queryRules]) rfl hv he
  simp only [hn, hp] at hcorrect
  cases hd : schema.fieldOf? (some parent) f.name with
  | none => simp [hf, hd] at hcorrect
  | some definition =>
    refine ⟨definition, rfl, ?_⟩
    simp only [hn, ht, hf, hd, Option.map_some] at hleafs
    cases hl : schema.isLeaf definition.type.base with
    | true =>
      left
      simp only [hl, ↓reduceIte] at hleafs
      refine ⟨rfl, ?_⟩
      by_contra hne
      simp [hne] at hleafs
    | false =>
      right
      simp only [hl, Bool.false_eq_true, ↓reduceIte] at hleafs
      refine ⟨Schema.isComposite_of_isOutput (hw.fieldOf? hd).1 hl, fun hnil => ?_⟩
      simp [hnil] at hleafs

end Accepts

/-- The parts of the selection set below a field are among those of the field. -/
theorem mem_selectionVisits_field {f : Field} {selections : List Selection} (hne : selections ≠ []) {visit : Visit}
    (hv : visit ∈ selectionsVisits schema
      ((position.below (.field f selections) (position.scope.inField schema f.name)).below (.selectionSet selections)
        ((position.scope.inField schema f.name).inSelectionSet schema)) selections) :
    visit ∈ selectionVisits schema position (.field f selections) := by
  rw [selectionVisits]
  refine mem_around.2 (.inr (.inl (List.mem_append_right _ ?_)))
  simp only [List.isEmpty_iff, hne, ↓reduceIte]
  exact mem_around.2 (.inr (.inl hv))

/-- The parts of the selection set of an inline fragment are among those of the fragment. -/
theorem mem_selectionVisits_inline {condition : Option String} {directives : List Directive}
    {selections : List Selection} {visit : Visit}
    (hv : visit ∈ selectionsVisits schema
      ((position.below (.inline condition directives selections) (position.scope.inInline schema condition)).below
        (.selectionSet selections) ((position.scope.inInline schema condition).inSelectionSet schema)) selections) :
    visit ∈ selectionVisits schema position (.inline condition directives selections) := by
  rw [selectionVisits]
  exact mem_around.2 (.inr (.inl (List.mem_append_right _ (mem_around.2 (.inr (.inl hv))))))

namespace Accepts

mutual

/-- The selections that an accepted document makes in a selection set on a type are typed. -/
theorem areTyped (h : Accepts schema document) (hw : schema.IsWellFormed) {position : Position} {parent : String}
    (hp : position.IsOn schema parent)
    {selections : List Selection}
    (hv : ∀ v ∈ selectionsVisits schema position selections, v ∈ visits schema document) :
    AreTyped schema parent selections :=
  match selections with
  | [] => trivial
  | selection :: rest => by
    rw [AreTyped]
    rw [selectionsVisits] at hv
    exact ⟨isTyped h hw hp fun v hm => hv v (List.mem_append_left _ hm),
      areTyped h hw hp fun v hm => hv v (List.mem_append_right _ hm)⟩

theorem isTyped (h : Accepts schema document) (hw : schema.IsWellFormed) {position : Position} {parent : String}
    (hp : position.IsOn schema parent)
    {selection : Selection}
    (hv : ∀ v ∈ selectionVisits schema position selection, v ∈ visits schema document) :
    selection.IsTyped schema parent :=
  match selection with
  | .field f selections => by
    have hfield : (position.scope.inField schema f.name).field = schema.fieldOf? (some parent) f.name := by
      rw [Scope.inField, hp.selects]
      rfl
    have hthis : ⟨true, .field f selections, position.parent, position.depth, position.inTypeSystem,
        position.scope.inField schema f.name⟩ ∈ visits schema document := by
      refine hv _ ?_
      rw [selectionVisits]
      exact mem_around.2 (.inl rfl)
    obtain ⟨definition, hd, hcase⟩ := h.field_visited hw hthis rfl rfl hp.selects hfield rfl
    rw [Selection.IsTyped]
    refine ⟨definition, hd, hcase.imp_right fun ⟨hc, hne⟩ => ⟨hc, hne, ?_⟩⟩
    have htype : (position.scope.inField schema f.name).type.map (·.base) = some definition.type.base := by
      show ((position.scope.inField schema f.name).field.map (·.type)).map (·.base) = _
      rw [hfield, hd]
      rfl
    exact areTyped h hw (isOn_inSelectionSet (position.below (.field f selections) _) _ _ hp.query htype hc)
      fun v hm => hv v (mem_selectionVisits_field hne hm)
  | .spread .. => trivial
  | .inline condition directives selections => by
    have hthis : ⟨true, .inline condition directives selections, position.parent, position.depth,
        position.inTypeSystem, position.scope.inInline schema condition⟩ ∈ visits schema document := by
      refine hv _ ?_
      rw [selectionVisits]
      exact mem_around.2 (.inl rfl)
    have hcondition : ∀ c ∈ condition, schema.isComposite c = true := by
      rintro c ⟨⟩
      have hname : ⟨true, .typeName c, .inline (some c) directives selections, position.depth + 1,
          position.inTypeSystem, position.scope.inInline schema (some c)⟩ ∈ visits schema document := by
        refine hv _ ?_
        rw [selectionVisits]
        refine mem_around.2 (.inr (.inl (List.mem_append_left _ (List.mem_append_left _ ?_))))
        exact List.mem_flatMap.2 ⟨c, List.mem_singleton_self c, mem_around.2 (.inl rfl)⟩
      refine isComposite_of_condition (h.type?_of_typeName hname rfl rfl hp.query) ?_
      have hflat := h.entry fragmentsOnCompositeTypes (by simp [queryRules]) rfl hthis rfl
      by_contra hno
      simp [hno] at hflat
    rw [Selection.IsTyped]
    have hcomposite : schema.isComposite (condition.getD parent) = true := by
      cases condition with
      | none => exact hp.composite
      | some c => exact hcondition c rfl
    refine ⟨hcondition, areTyped h hw ?_ fun v hm => hv v (mem_selectionVisits_inline hm)⟩
    exact isOn_inSelectionSet (position.below (.inline condition directives selections) _) _ _ hp.query
      (type_inInline hp.type hcondition) hcomposite

end

/-! ## Operations and fragments -/

/-- The root types of a schema that is valid are object types. -/
theorem isObject_root (h : Accepts schema document) {kind : OperationKind} {root : String}
    (hr : schema.root? kind = some root) : schema.isObject root = true := by
  have hvalid := h.valid
  rw [Schema.errors, List.append_eq_nil_iff, List.append_eq_nil_iff] at hvalid
  have hroots := hvalid.1.1
  simp only [Schema.rootErrors, List.append_eq_nil_iff] at hroots
  obtain ⟨⟨hquery, hmutation⟩, hsubscription⟩ := hroots
  by_contra hno
  cases kind with
  | query => simp_all [Schema.root?]
  | mutation => simp_all [Schema.root?]
  | subscription => simp_all [Schema.root?]

/-- **The operations of an accepted document are typed.** -/
theorem areTyped_operation (h : Accepts schema document) (hw : schema.IsWellFormed) {o : Operation}
    (ho : .operation o ∈ document) {root : String} (hr : schema.root? o.kind = some root) :
    AreTyped schema root o.selections := by
  have hobject := h.isObject_root hr
  have htype : ((Definition.operation o).scope schema).type.map (·.base) = some root := by
    show ((((schema.root? o.kind).filter schema.isObject).map TypeRef.named).map (·.base)) = some root
    rw [hr]
    simp [hobject, TypeRef.base]
  have hon := isOn_inSelectionSet (partsPosition schema document (.operation o)) _ (.selectionSet o.selections) rfl
    htype (Schema.isComposite_of_isObject hobject)
  refine h.areTyped hw hon fun v hv => mem_visits_of_part ho ?_
  exact List.mem_append_right _ (mem_around.2 (.inr (.inl hv)))

theorem isComposite_fragment (h : Accepts schema document) {f : Fragment} (hf : .fragment f ∈ document) :
    schema.isComposite f.condition = true := by
  have hname := @mem_visits_of_part schema _ _ hf _ (List.mem_append_left _ (List.mem_append_left _
    (mem_around.2 (.inl rfl))))
  refine isComposite_of_condition (h.type?_of_typeName hname rfl rfl rfl) ?_
  have hflat := h.entry fragmentsOnCompositeTypes (by simp [queryRules]) rfl
    (mem_visits_of_definition hf (mem_around.2 (.inl rfl))) rfl
  by_contra hno
  simp [hno] at hflat

/-- **The fragments of an accepted document are typed.** -/
theorem areTyped_fragment (h : Accepts schema document) (hw : schema.IsWellFormed) {f : Fragment}
    (hf : .fragment f ∈ document) : AreTyped schema f.condition f.selections := by
  have hcomposite := h.isComposite_fragment hf
  have htype : ((Definition.fragment f).scope schema).type.map (·.base) = some f.condition := by
    show (Scope.outputNamed schema f.condition).map (·.base) = some f.condition
    simp [Scope.outputNamed, Schema.isOutput_of_isComposite hcomposite, TypeRef.base]
  have hon := isOn_inSelectionSet (partsPosition schema document (.fragment f)) _ (.selectionSet f.selections) rfl htype
    hcomposite
  refine h.areTyped hw hon fun v hv => mem_visits_of_part hf ?_
  exact List.mem_append_right _ (mem_around.2 (.inr (.inl hv)))

end Accepts

/-! ## Inlining -/

theorem mem_of_fragment? {name : String} {f : Fragment} (h : fragment? document name = some f) :
    .fragment f ∈ document ∧ f.name = name := by
  have hmem := List.mem_of_find?_eq_some h
  rw [List.mem_reverse, fragments, List.mem_filterMap] at hmem
  obtain ⟨d, hd, hf⟩ := hmem
  refine ⟨?_, by simpa using List.find?_some h⟩
  cases d <;> simp_all

theorem inlineSelections_cons_eq_ok {n : Nat} {first : Selection} {rest inlined : List Selection} :
    inlineSelections document n (first :: rest) = .ok inlined ↔ ∃ first' rest',
      inlineSelection document n first = .ok first' ∧ inlineSelections document n rest = .ok rest' ∧
        inlined = first' :: rest' := by
  rw [inlineSelections]
  simp only [bind_eq_ok_iff]
  constructor
  · rintro ⟨first', hf, rest', hr, h⟩
    cases h
    exact ⟨first', rest', hf, hr, rfl⟩
  · rintro ⟨first', rest', hf, hr, rfl⟩
    exact ⟨first', hf, rest', hr, rfl⟩

theorem inlineSelection_field_eq_ok {n : Nat} {f : Field} {selections : List Selection} {t : Selection} :
    inlineSelection document n (.field f selections) = .ok t ↔
      ∃ inlined, inlineSelections document n selections = .ok inlined ∧ t = .field f inlined := by
  rw [inlineSelection, bind_eq_ok_iff]
  refine exists_congr fun inlined => and_congr_right fun _ => ⟨fun h => ?_, fun h => by rw [h]; rfl⟩
  cases h
  rfl

theorem inlineSelection_inline_eq_ok {n : Nat} {condition : Option String} {directives : List Directive}
    {selections : List Selection} {t : Selection} :
    inlineSelection document n (.inline condition directives selections) = .ok t ↔
      ∃ inlined, inlineSelections document n selections = .ok inlined ∧ t = .inline condition directives inlined := by
  rw [inlineSelection, bind_eq_ok_iff]
  refine exists_congr fun inlined => and_congr_right fun _ => ⟨fun h => ?_, fun h => by rw [h]; rfl⟩
  cases h
  rfl

/-- The spread of a fragment becomes an inline fragment with the directives of the spread. -/
theorem inlineSelection_spread_eq_ok {n : Nat} {name : String} {directives : List Directive} {t : Selection} :
    inlineSelection document n (.spread name directives) = .ok t ↔ ∃ m f inlined, n = m + 1 ∧
      fragment? document name = some f ∧ inlineSelections document m f.selections = .ok inlined ∧
        t = .inline (some f.condition) directives inlined := by
  rw [inlineSelection.eq_def]
  cases hf : fragment? document name with
  | none => simp [hf]
  | some f =>
    cases n with
    | zero => simp [hf]
    | succ n =>
      simp only [hf, bind_eq_ok_iff]
      constructor
      · rintro ⟨inlined, hi, h⟩
        cases h
        exact ⟨n, f, inlined, rfl, rfl, hi, rfl⟩
      · rintro ⟨m, g, inlined, hm, hg, hi, rfl⟩
        cases hm
        cases hg
        exact ⟨inlined, hi, rfl⟩

/-- Inlining keeps the number of selections. -/
theorem length_inlineSelections {n : Nat} : ∀ {selections inlined : List Selection},
    inlineSelections document n selections = .ok inlined → inlined.length = selections.length
  | [], inlined, h => by
    rw [inlineSelections] at h
    cases h
    rfl
  | selection :: rest, inlined, h => by
    rw [inlineSelections, bind_eq_ok_iff] at h
    obtain ⟨first, -, h⟩ := h
    obtain ⟨others, hr, h⟩ := bind_eq_ok_iff.1 h
    cases h
    rw [List.length_cons, List.length_cons, length_inlineSelections hr]

/-- Are the fragments that spreads refer to typed? -/
def FragmentsAreTyped (schema : Schema) (document : Document) : Prop :=
  ∀ name f, fragment? document name = some f →
    schema.isComposite f.condition = true ∧ AreTyped schema f.condition f.selections

mutual

/-- **Typed selections stay typed when fragments are inlined.** -/
theorem areTyped_inlineSelections (hall : FragmentsAreTyped schema document) {n : Nat} {parent : String}
    {selections inlined : List Selection}
    (ht : AreTyped schema parent selections)
    (h : inlineSelections document n selections = .ok inlined) : AreTyped schema parent inlined :=
  match selections with
  | [] => by
    rw [inlineSelections] at h
    cases h
    trivial
  | selection :: rest => by
    rw [AreTyped] at ht
    rw [inlineSelections, bind_eq_ok_iff] at h
    obtain ⟨first, hf, h⟩ := h
    obtain ⟨others, hr, h⟩ := bind_eq_ok_iff.1 h
    cases h
    rw [AreTyped]
    exact ⟨isTyped_inlineSelection hall ht.1 hf, areTyped_inlineSelections hall ht.2 hr⟩
termination_by (n, sizeOf selections)

theorem isTyped_inlineSelection (hall : FragmentsAreTyped schema document) {n : Nat} {parent : String}
    {selection inlined : Selection}
    (ht : selection.IsTyped schema parent)
    (h : inlineSelection document n selection = .ok inlined) : inlined.IsTyped schema parent :=
  match selection with
  | .field f selections => by
    rw [inlineSelection, bind_eq_ok_iff] at h
    obtain ⟨inner, hi, h⟩ := h
    cases h
    rw [Selection.IsTyped] at ht ⊢
    have hlength := length_inlineSelections hi
    obtain ⟨definition, hd, ⟨hl, rfl⟩ | ⟨hc, hne, ht⟩⟩ := ht
    · exact ⟨definition, hd, .inl ⟨hl, List.eq_nil_of_length_eq_zero hlength⟩⟩
    · refine ⟨definition, hd, .inr ⟨hc, ?_, areTyped_inlineSelections hall ht hi⟩⟩
      rintro rfl
      exact hne (List.eq_nil_of_length_eq_zero hlength.symm)
  | .inline condition directives selections => by
    rw [inlineSelection, bind_eq_ok_iff] at h
    obtain ⟨inner, hi, h⟩ := h
    cases h
    rw [Selection.IsTyped] at ht ⊢
    exact ⟨ht.1, areTyped_inlineSelections hall ht.2 hi⟩
  | .spread name directives => by
    rw [inlineSelection.eq_def] at h
    cases hf : fragment? document name with
    | none => simp [hf] at h
    | some f =>
      cases n with
      | zero => simp [hf] at h
      | succ n =>
        simp only [hf] at h
        obtain ⟨inner, hi, h⟩ := bind_eq_ok_iff.1 h
        cases h
        obtain ⟨hc, ht⟩ := hall name f hf
        rw [Selection.IsTyped]
        refine ⟨?_, areTyped_inlineSelections hall ht hi⟩
        rintro c ⟨⟩
        exact hc
termination_by (n, sizeOf selection)

end

/-- The operations of an inlined document are those of the document, their selections inlined. -/
theorem exists_operation_of_inline {inlined : Document} (h : inline document = .ok inlined) {o : Operation}
    (ho : .operation o ∈ inlined) : ∃ o', .operation o' ∈ document ∧ o.kind = o'.kind ∧
      inlineSelections document (fragments document).length o'.selections = .ok o.selections := by
  obtain ⟨d, hd, hf⟩ := mem_of_filterMapM h ho
  cases d with
  | operation o' =>
    rw [inlineDefinition, bind_eq_ok_iff] at hf
    obtain ⟨selections, hs, hf⟩ := hf
    cases hf
    exact ⟨o', hd, rfl, hs⟩
  | fragment f => cases hf
  | schema s => cases hf
  | schemaExtension s => cases hf
  | type t => cases hf
  | typeExtension t => cases hf
  | directive d => cases hf

/-- **The operations of an accepted document are typed after inlining.** -/
theorem Accepts.areTyped_inlined (h : Accepts schema document) (hw : schema.IsWellFormed) {inlined : Document}
    (hi : inline document = .ok inlined) {o : Operation} (ho : .operation o ∈ inlined) {root : String}
    (hr : schema.root? o.kind = some root) : AreTyped schema root o.selections := by
  obtain ⟨o', ho', hkind, hs⟩ := exists_operation_of_inline hi ho
  rw [hkind] at hr
  refine areTyped_inlineSelections (fun name f hf => ?_) (h.areTyped_operation hw ho' hr) hs
  have hmem := (mem_of_fragment? hf).1
  exact ⟨h.isComposite_fragment hmem, h.areTyped_fragment hw hmem⟩

end

end FixtureCheck.GraphQL
