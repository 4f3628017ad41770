import FixtureCheck.GraphQL.Validation

/-!
# Documents without findings

A document is accepted when the schema is valid and no rule reports anything (`Accepts`, `accepts_of_validate`). A rule
that looks at one part at a time then has no message for any part that the walk through the document enters
(`Accepts.entry`), and a rule about repetitions has met no key twice (`nodup_of_repeats`).
-/

namespace FixtureCheck.GraphQL

/-! ## Patterns of rules -/

theorem exists_mem_zipIdx {visit : Visit} {walk : List Visit} (h : visit ∈ walk) :
    ∃ time, (visit, time) ∈ walk.zipIdx := by
  obtain ⟨i, hi, rfl⟩ := List.mem_iff_getElem.1 h
  exact ⟨i, by simp [List.mem_zipIdx_iff_getElem?, hi]⟩

theorem eachEntry_eq_nil {messages : Visit → List String} {walk : List Visit}
    (h : eachEntry messages walk.zipIdx = []) {visit : Visit} (hv : visit ∈ walk) (he : visit.entering = true) :
    messages visit = [] := by
  obtain ⟨time, ht⟩ := exists_mem_zipIdx hv
  have hnone := List.flatMap_eq_nil_iff.1 h _ ht
  simpa [he] using hnone

/-- The keys that a rule about repetitions meets on the way in. -/
def keysMet (key : Visit → Option String) (walk : List Visit) : List String :=
  walk.filterMap fun visit => if visit.entering then key visit else none

theorem nodup_of_go {key : Visit → Option String} {message : String → String} : ∀ {walk : List (Visit × Nat)}
    {seen : List String}, repeats.go key message seen walk = [] →
      (keysMet key (walk.map (·.1))).Nodup ∧ ∀ k ∈ keysMet key (walk.map (·.1)), k ∉ seen
  | [], seen, _ => ⟨.nil, by simp [keysMet]⟩
  | (visit, time) :: rest, seen, h => by
    rw [repeats.go] at h
    cases hk : (if visit.entering then key visit else none) with
    | none =>
      rw [hk] at h
      have hmet : keysMet key (((visit, time) :: rest).map (·.1)) = keysMet key (rest.map (·.1)) :=
        List.filterMap_cons_none hk
      rw [hmet]
      exact nodup_of_go h
    | some k =>
      rw [hk] at h
      have hmet : keysMet key (((visit, time) :: rest).map (·.1)) = k :: keysMet key (rest.map (·.1)) :=
        List.filterMap_cons_some hk
      rw [hmet]
      by_cases hs : k ∈ seen
      · simp [hs] at h
      · simp only [List.contains_eq_mem, hs, decide_false, Bool.false_eq_true, ↓reduceIte] at h
        obtain ⟨hn, hnot⟩ := nodup_of_go h
        refine ⟨List.nodup_cons.2 ⟨fun hm => hnot k hm List.mem_cons_self, hn⟩, ?_⟩
        intro k' hk'
        rcases List.mem_cons.1 hk' with rfl | hk'
        · exact hs
        · exact fun hm => hnot k' hk' (List.mem_cons_of_mem _ hm)

/-- A rule about repetitions that reports nothing has met no key twice. -/
theorem nodup_of_repeats {key : Visit → Option String} {message : String → String} {walk : List Visit}
    (h : repeats key message walk.zipIdx = []) : (keysMet key walk).Nodup := by
  have hn := (nodup_of_go h).1
  rwa [List.zipIdx_map_fst] at hn

/-- Rules that find nothing together find nothing each. -/
theorem eq_nil_of_findings {rules : List Rule} {schema : Schema} {document : Document}
    (h : findings rules schema document = []) {rule : Rule} (hr : rule ∈ rules) :
    rule schema document (visits schema document).zipIdx = [] := by
  have hp := List.mergeSort_perm (rules.flatMap fun rule => rule schema document (visits schema document).zipIdx)
    fun a b => a.time ≤ b.time
  rw [findings] at h
  simp only [h] at hp
  exact List.flatMap_eq_nil_iff.1 hp.symm.eq_nil rule hr

/-! ## Accepted documents -/

/-- **Is a document accepted under a schema?** -/
structure Accepts (schema : Schema) (document : Document) : Prop where
  valid : schema.errors = []
  silent : ∀ rule ∈ queryRules, rule schema document (visits schema document).zipIdx = []

theorem limited_eq_nil {messages : List String} (h : limited messages = []) : messages = [] := by
  unfold limited at h
  split at h
  · simp at h
  · exact h

theorem findings_of_queryErrors {schema : Schema} {document : Document} (h : queryErrors schema document = .ok []) :
    findings queryRules schema document = [] := by
  unfold queryErrors at h
  simp only at h
  split at h
  · have hmap := limited_eq_nil (Except.ok.inj h)
    exact List.map_eq_nil_iff.1 hmap
  · split at h
    · rename_i hlen
      -- more than a hundred errors are not cut down to none
      have hmap := limited_eq_nil (Except.ok.inj h)
      rw [List.map_eq_nil_iff.1 hmap] at hlen
      simp at hlen
    · cases h

/-- Validation accepts a document if it finds nothing. -/
theorem accepts_of_validate {schema : Schema} {document : Document} (h : validate schema document = .ok []) :
    Accepts schema document := by
  unfold validate Schema.checkValid at h
  cases he : schema.errors with
  | cons message rest =>
    rw [he] at h
    cases h
  | nil =>
    rw [he] at h
    refine ⟨he, fun rule hr => ?_⟩
    have hq : queryErrors schema document = .ok [] := by
      cases hq : queryErrors schema document with
      | error misuse =>
        rw [hq] at h
        cases h
      | ok messages =>
        rw [hq] at h
        cases h
        rfl
    exact eq_nil_of_findings (findings_of_queryErrors hq) hr

namespace Accepts

variable {schema : Schema} {document : Document}

/-- A rule that looks at one part at a time has no message for a part of an accepted document. -/
theorem entry (h : Accepts schema document) (rule : Rule) {messages : Visit → List String} (hr : rule ∈ queryRules)
    (he : rule schema document = eachEntry messages) {visit : Visit} (hv : visit ∈ visits schema document)
    (hi : visit.entering = true) : messages visit = [] := by
  have hs := h.silent rule hr
  rw [he] at hs
  exact eachEntry_eq_nil hs hv hi

end Accepts

/-! ## Where parts are met -/

theorem mem_around {position : Position} {node : Node} {scope : Scope} {inside : List Visit} {visit : Visit} :
    visit ∈ position.around node scope inside ↔
      visit = ⟨true, node, position.parent, position.depth, position.inTypeSystem, scope⟩ ∨ visit ∈ inside ∨
        visit = ⟨false, node, position.parent, position.depth, position.inTypeSystem, scope⟩ := by
  simp [Position.around]

variable {schema : Schema} {document : Document}

theorem mem_visits_of_definition {d : Definition} (hd : d ∈ document) {visit : Visit}
    (hv : visit ∈ definitionVisits schema document d) : visit ∈ visits schema document :=
  mem_around.2 (.inr (.inl (List.mem_flatMap.2 ⟨d, hd, hv⟩)))

/-- The position of the parts of a definition. -/
def partsPosition (schema : Schema) (document : Document) (d : Definition) : Position :=
  (⟨.document document, 1, d.isTypeSystem, {}⟩ : Position).below (.definition d) (d.scope schema)

theorem mem_visits_of_part {d : Definition} (hd : d ∈ document) {visit : Visit}
    (hv : visit ∈ definitionParts schema (partsPosition schema document d) d) : visit ∈ visits schema document :=
  mem_visits_of_definition hd (mem_around.2 (.inr (.inl hv)))

/-- The definitions that a rule about repetitions picks a key of are met in the order of the document. -/
theorem sublist_keysMet {key : Visit → Option String} {pick : Definition → Option String}
    (hkey : ∀ visit d, visit.node = .definition d → key visit = pick d) (top : Document) :
    ∀ part : Document, (part.filterMap pick).Sublist (keysMet key (part.flatMap (definitionVisits schema top)))
  | [] => .slnil
  | d :: rest => by
    rw [List.flatMap_cons, keysMet, List.filterMap_append]
    have ih : (rest.filterMap pick).Sublist (keysMet key (rest.flatMap (definitionVisits schema top))) :=
      sublist_keysMet hkey top rest
    cases hp : pick d with
    | none =>
      rw [List.filterMap_cons_none hp]
      exact ih.trans (List.sublist_append_right _ _)
    | some k =>
      rw [List.filterMap_cons_some hp]
      have hfirst : [k].Sublist (keysMet key (definitionVisits schema top d)) :=
        List.singleton_sublist.2 (List.mem_filterMap.2 ⟨_, mem_around.2 (.inl rfl), (hkey _ d rfl).trans hp⟩)
      exact List.Sublist.append hfirst ih

/-- A rule about repetitions of keys of definitions that reports nothing leaves them distinct. -/
theorem nodup_of_repeats_definitions {key : Visit → Option String} {pick : Definition → Option String}
    {message : String → String} (hkey : ∀ visit d, visit.node = .definition d → key visit = pick d)
    (h : repeats key message (visits schema document).zipIdx = []) : (document.filterMap pick).Nodup := by
  have hall : (document.flatMap (definitionVisits schema document)).Sublist (visits schema document) :=
    (List.sublist_append_left _ _).trans (List.sublist_cons_self _ _)
  exact (nodup_of_repeats h).sublist ((sublist_keysMet hkey document document).trans (hall.filterMap _))

/-! ## Parts of queries -/

/-- Is a part neither a document nor a definition? -/
def Node.IsPart : Node → Prop
  | .document _ | .definition _ => False
  | _ => True

/-- Does a walk meet parts of definitions only? -/
def AllParts (walk : List Visit) : Prop := ∀ visit ∈ walk, visit.node.IsPart

theorem allParts_nil : AllParts [] := fun _ h => absurd h List.not_mem_nil

theorem AllParts.append {walk walk' : List Visit} (h : AllParts walk) (h' : AllParts walk') :
    AllParts (walk ++ walk') :=
  fun visit hm => (List.mem_append.1 hm).elim (h visit) (h' visit)

theorem allParts_flatMap {α : Type} {parts : List α} {walk : α → List Visit}
    (h : ∀ part ∈ parts, AllParts (walk part)) :
    AllParts (parts.flatMap walk) := by
  intro visit hm
  obtain ⟨part, hp, hv⟩ := List.mem_flatMap.1 hm
  exact h part hp visit hv

theorem AllParts.around {position : Position} {node : Node} {scope : Scope} {inside : List Visit} (hn : node.IsPart)
    (h : AllParts inside) : AllParts (position.around node scope inside) := by
  intro visit hm
  rcases mem_around.1 hm with rfl | hm | rfl
  · exact hn
  · exact h visit hm
  · exact hn

section

variable (schema)

mutual

theorem allParts_valueVisits (position : Position) : ∀ value : Value, AllParts (valueVisits schema position value)
  | .list items => by
    rw [valueVisits]
    exact .around trivial (allParts_valuesVisits _ items)
  | .object fields => by
    rw [valueVisits]
    exact .around trivial (allParts_objectFieldsVisits _ fields)
  | .variable _ | .int _ | .float _ | .string .. | .boolean _ | .null | .enum _ => by
    simp only [valueVisits]
    exact .around trivial allParts_nil

theorem allParts_valuesVisits (position : Position) :
    ∀ items : List Value, AllParts (valuesVisits schema position items)
  | [] => by
    rw [valuesVisits]
    exact allParts_nil
  | value :: rest => by
    rw [valuesVisits]
    exact (allParts_valueVisits position value).append (allParts_valuesVisits position rest)

theorem allParts_objectFieldsVisits (position : Position) : ∀ fields : List (String × Value),
    AllParts (objectFieldsVisits schema position fields)
  | [] => by
    rw [objectFieldsVisits]
    exact allParts_nil
  | (name, value) :: rest => by
    rw [objectFieldsVisits]
    exact AllParts.append (.around trivial (allParts_valueVisits _ value)) (allParts_objectFieldsVisits position rest)

end

theorem allParts_argumentsVisits (position : Position) (arguments : List Argument) :
    AllParts (argumentsVisits schema position arguments) :=
  allParts_flatMap fun a _ => .around trivial (allParts_valueVisits schema _ a.value)

theorem allParts_directivesVisits (position : Position) (directives : List Directive) :
    AllParts (directivesVisits schema position directives) :=
  allParts_flatMap fun d _ => .around trivial (allParts_argumentsVisits schema _ d.arguments)

theorem allParts_typeNamesVisits (position : Position) (names : List String) :
    AllParts (typeNamesVisits position names) :=
  allParts_flatMap fun _ _ => .around trivial allParts_nil

mutual

theorem allParts_selectionVisits (position : Position) : ∀ selection : Selection,
    AllParts (selectionVisits schema position selection)
  | .field f selections => by
    rw [selectionVisits]
    refine .around trivial (.append ?_ ?_)
    · exact (allParts_argumentsVisits schema _ _).append (allParts_directivesVisits schema _ _)
    · split
      · exact allParts_nil
      · exact .around trivial (allParts_selectionsVisits _ selections)
  | .spread name directives => by
    rw [selectionVisits]
    exact .around trivial (allParts_directivesVisits schema _ _)
  | .inline condition directives selections => by
    rw [selectionVisits]
    refine .around trivial (((allParts_typeNamesVisits _ _).append (allParts_directivesVisits schema _ _)).append ?_)
    exact .around trivial (allParts_selectionsVisits _ selections)

theorem allParts_selectionsVisits (position : Position) : ∀ selections : List Selection,
    AllParts (selectionsVisits schema position selections)
  | [] => by
    rw [selectionsVisits]
    exact allParts_nil
  | selection :: rest => by
    rw [selectionsVisits]
    exact (allParts_selectionVisits position selection).append (allParts_selectionsVisits position rest)

end

theorem allParts_variableVisits (position : Position) (v : VariableDefinition) :
    AllParts (variableVisits schema position v) := by
  refine .around trivial (AllParts.append (AllParts.append (.append ?_ ?_) ?_) (allParts_directivesVisits schema _ _))
  · exact .around trivial allParts_nil
  · exact .around trivial allParts_nil
  · cases v.default? with
    | none => exact allParts_nil
    | some value => exact allParts_valueVisits schema _ value

/-- The walk through an operation or a fragment meets parts only. -/
theorem allParts_definitionParts (position : Position) {d : Definition} (hd : d.isTypeSystem = false) :
    AllParts (definitionParts schema position d) := by
  cases d with
  | operation o =>
    refine AllParts.append (.append (allParts_flatMap fun v _ => allParts_variableVisits schema position v) ?_) ?_
    · exact allParts_directivesVisits schema _ _
    · exact .around trivial (allParts_selectionsVisits schema _ _)
  | fragment f =>
    refine AllParts.append (.append (.around trivial allParts_nil) (allParts_directivesVisits schema _ _)) ?_
    exact .around trivial (allParts_selectionsVisits schema _ _)
  | schema s => cases hd
  | schemaExtension s => cases hd
  | type t => cases hd
  | typeExtension t => cases hd
  | directive d => cases hd

end

namespace Accepts

/-- The definitions of an accepted document are operations and fragments. -/
theorem isTypeSystem_eq_false (h : Accepts schema document) {d : Definition} (hd : d ∈ document) :
    d.isTypeSystem = false := by
  have hthis : ⟨true, .document document, .document document, 0, false, {}⟩ ∈ visits schema document :=
    mem_around.2 (.inl rfl)
  have hexec := h.entry executableDefinitions (by simp [queryRules]) rfl hthis rfl
  simp only [List.map_eq_nil_iff, List.filter_eq_nil_iff] at hexec
  simpa using hexec d hd

/-- The walk through an accepted document meets no definitions but those of the document. -/
theorem mem_of_definition_visited (h : Accepts schema document) {visit : Visit} (hv : visit ∈ visits schema document)
    {d : Definition} (hn : visit.node = .definition d) : d ∈ document := by
  rcases mem_around.1 hv with rfl | hv | rfl
  · cases hn
  · obtain ⟨d', hd', hv⟩ := List.mem_flatMap.1 hv
    rcases mem_around.1 hv with rfl | hv | rfl
    · cases hn
      exact hd'
    · have hpart := allParts_definitionParts schema _ (h.isTypeSystem_eq_false hd') visit hv
      rw [hn] at hpart
      exact hpart.elim
    · cases hn
      exact hd'
  · cases hn

end Accepts

end FixtureCheck.GraphQL
