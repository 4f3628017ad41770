import FixtureCheck.Proofs.Query.Cycles
import FixtureCheck.Proofs.Query.InlinedFields
import FixtureCheck.Proofs.Query.Reordered

/-!
# Documents with selection sets rewritten

`Rewritten` closes a rule for selection sets under the selections around them. A document is rewritten definition by
definition (`DocumentRewritten`); a fragment may come with it that rewritten sets spread. If an accepted document is
rewritten so that sets spread no more than before but for that fragment, which spreads no more than they did
(`SpreadsLess`), spreading stays well-founded (`wellFounded_rewritten`), and the document can still be inlined, to the
same operations but for their selections (`exists_inline_rewritten`).
-/

namespace FixtureCheck.GraphQL

/-- **Do selections come of others by a rule** that rewrites selection sets, at any depth? -/
inductive Rewritten (rule : List Selection → List Selection → Prop) : List Selection → List Selection → Prop where
  | refl (selections : List Selection) : Rewritten rule selections selections
  | set {selections selections' : List Selection} (h : rule selections selections') :
      Rewritten rule selections selections'
  | field {before after inner inner' : List Selection} {f : Field} (below : Rewritten rule inner inner') :
      Rewritten rule (before ++ .field f inner :: after) (before ++ .field f inner' :: after)
  | inline {before after inner inner' : List Selection} {condition : Option String} {directives : List Directive}
      (below : Rewritten rule inner inner') :
      Rewritten rule (before ++ .inline condition directives inner :: after)
        (before ++ .inline condition directives inner' :: after)
  | trans {selections between selections' : List Selection} (first : Rewritten rule selections between)
      (second : Rewritten rule between selections') : Rewritten rule selections selections'

/-- Does a definition come of another one by a rule for selection sets? -/
inductive Definition.Rewritten (rule : List Selection → List Selection → Prop) : Definition → Definition → Prop where
  | operation {o : Operation} {selections : List Selection} (h : GraphQL.Rewritten rule o.selections selections) :
      Definition.Rewritten rule (.operation o) (.operation { o with selections })
  | fragment {f : Fragment} {selections : List Selection} (h : GraphQL.Rewritten rule f.selections selections) :
      Definition.Rewritten rule (.fragment f) (.fragment { f with selections })
  | same (d : Definition) : Definition.Rewritten rule d d

/-- **Does a document come of another one by a rule for selection sets?** A fragment may be added at its end. -/
def DocumentRewritten (rule : List Selection → List Selection → Prop) (added : Option Fragment)
    (document document' : Document) : Prop :=
  ∃ rewritten, List.Forall₂ (Definition.Rewritten rule) document rewritten ∧
    document' = rewritten ++ added.toList.map .fragment

/-! ## Spreads of rewritten selections -/

/-- **Do selections spread no more than others**, but for a fragment that spreads no more itself? -/
def SpreadsLess (added : Option Fragment) (selections selections' : List Selection) : Prop :=
  ∀ name ∈ spreadNames selections', name ∈ spreadNames selections ∨
    ∃ f ∈ added, f.name = name ∧ ∀ inner ∈ spreadNames f.selections, inner ∈ spreadNames selections

theorem mem_spreadNames_append {name : String} {before after : List Selection} :
    name ∈ spreadNames (before ++ after) ↔ name ∈ spreadNames before ∨ name ∈ spreadNames after := by
  induction before with
  | nil => simp [spreadNames, directSpreads, innerSpreads]
  | cons first before ih => rw [List.cons_append, mem_spreadNames_cons, mem_spreadNames_cons, ih, or_assoc]

namespace SpreadsLess

variable {added : Option Fragment} {selections between selections' before after inner inner' : List Selection}

theorem refl (selections : List Selection) : SpreadsLess added selections selections := fun _ h => .inl h

/-- What a fragment spreads that is added is no added fragment, so it is found before. -/
theorem trans (hadded : ∀ f ∈ added, f.name ∉ spreadNames f.selections) (h : SpreadsLess added selections between)
    (h' : SpreadsLess added between selections') : SpreadsLess added selections selections' := by
  intro name hname
  rcases h' name hname with hname | ⟨f, hf, rfl, hinner⟩
  · exact h name hname
  · refine .inr ⟨f, hf, rfl, fun inner hi => ?_⟩
    rcases h inner (hinner inner hi) with hi' | ⟨g, hg, rfl, -⟩
    · exact hi'
    · obtain rfl : g = f := Option.some.inj (hg.symm.trans hf)
      exact absurd hi (hadded g hg)

/-- Selections around others change nothing. -/
theorem around {first first' : Selection} (hfirst : ∀ name, name ∈ spreadsAt first ↔ name ∈ spreadNames inner)
    (hfirst' : ∀ name, name ∈ spreadsAt first' ↔ name ∈ spreadNames inner') (h : SpreadsLess added inner inner') :
    SpreadsLess added (before ++ first :: after) (before ++ first' :: after) := by
  intro name hname
  simp only [mem_spreadNames_append, mem_spreadNames_cons, hfirst, hfirst'] at hname ⊢
  rcases hname with hname | hname | hname
  · exact .inl (.inl hname)
  · rcases h name hname with hname | ⟨f, hf, hname, hi⟩
    · exact .inl (.inr (.inl hname))
    · exact .inr ⟨f, hf, hname, fun inner hin => .inr (.inl (hi inner hin))⟩
  · exact .inl (.inr (.inr hname))

/-- Selections that are rewritten spread no more if those do that the rule rewrites. -/
theorem of_rewritten {rule : List Selection → List Selection → Prop}
    (hadded : ∀ f ∈ added, f.name ∉ spreadNames f.selections)
    (hrule : ∀ selections selections', rule selections selections' → SpreadsLess added selections selections')
    (h : Rewritten rule selections selections') : SpreadsLess added selections selections' := by
  induction h with
  | refl selections => exact .refl selections
  | set h => exact hrule _ _ h
  | field _ ih => exact ih.around (fun _ => .rfl) fun _ => .rfl
  | inline _ ih => exact ih.around (fun _ => .rfl) fun _ => .rfl
  | trans _ _ ih ih' => exact ih.trans hadded ih'

end SpreadsLess

/-! ## Fragments of rewritten documents -/

section

variable {rule : List Selection → List Selection → Prop} {added : Option Fragment}
  {document document' rewritten : Document}

theorem fragments_append (document document' : Document) :
    fragments (document ++ document') = fragments document ++ fragments document' := List.filterMap_append

theorem fragments_map (added : List Fragment) : fragments (added.map .fragment) = added := by
  induction added with
  | nil => rfl
  | cons f rest ih => exact congrArg (f :: ·) ih

/-- The fragments of a document that is rewritten are those of the document but for their selections. -/
theorem forall₂_fragments (h : List.Forall₂ (Definition.Rewritten rule) document rewritten) :
    List.Forall₂ (fun f f' : Fragment => f'.name = f.name ∧ Rewritten rule f.selections f'.selections)
      (fragments document) (fragments rewritten) := by
  induction h with
  | nil => exact .nil
  | @cons d d' rest rest' hd _ ih =>
    cases hd with
    | operation _ => exact ih
    | fragment h => exact .cons ⟨rfl, h⟩ ih
    | same =>
      cases d with
      | fragment f => exact .cons ⟨rfl, .refl _⟩ ih
      | operation o | schema s | schemaExtension s | type t | typeExtension t | directive d => exact ih

/-- A fragment of a name before rewriting is one after it. -/
theorem rel_fragment? (h : List.Forall₂ (Definition.Rewritten rule) document rewritten) (name : String) :
    Option.Rel (fun f f' : Fragment => f'.name = f.name ∧ Rewritten rule f.selections f'.selections)
      (fragment? document name) (fragment? rewritten name) :=
  rel_find?_of_forall₂ (fun f f' hff => by rw [hff.1]) (List.rel_reverse (forall₂_fragments h))

/-- A fragment is the one that is added or one from before. -/
theorem fragment?_append_added {name : String} {f : Fragment}
    (hf : fragment? (document ++ added.toList.map .fragment) name = some f) :
    (f ∈ added ∧ f.name = name) ∨ fragment? document name = some f := by
  rw [fragment?, fragments_append, fragments_map, List.reverse_append, List.find?_append, Option.or_eq_some_iff] at hf
  rcases hf with hf | ⟨-, hf⟩
  · refine .inl ⟨?_, by simpa using List.find?_some hf⟩
    have hmem := List.mem_of_find?_eq_some hf
    rw [List.mem_reverse] at hmem
    exact Option.mem_toList.1 hmem
  · exact .inr hf

/-- What holds of a document that is rewritten: the fragment that is added is new, spreads fragments of the document,
and sets spread no more than before but for it. -/
structure IsOutlined (rule : List Selection → List Selection → Prop) (added : Option Fragment) (document : Document) :
    Prop where
  new : ∀ f ∈ added, f.name ∉ fragmentNames document
  known : ∀ f ∈ added, ∀ inner ∈ spreadNames f.selections, IsFragment document inner
  less : ∀ selections selections', rule selections selections' → SpreadsLess added selections selections'

namespace IsOutlined

theorem not_isFragment (h : IsOutlined rule added document) {f : Fragment} (hf : f ∈ added) :
    ¬ IsFragment document f.name := by
  intro hisf
  obtain ⟨g, hg⟩ := Option.isSome_iff_exists.1 hisf
  exact h.new f hf (mem_fragmentNames hg)

theorem not_mem_spreadNames (h : IsOutlined rule added document) : ∀ f ∈ added, f.name ∉ spreadNames f.selections :=
  fun f hf hm => h.not_isFragment hf (h.known f hf f.name hm)

/-- A fragment of the rewritten document is the added one, or it spreads what it spread before, or the added one if it
spread all that this does. -/
theorem spreadIn_cases (h : IsOutlined rule added document)
    (hr : List.Forall₂ (Definition.Rewritten rule) document rewritten) {inner outer : String}
    (hs : SpreadIn (rewritten ++ added.toList.map .fragment) inner outer) :
    (∃ f ∈ added, f.name = outer ∧ inner ∈ spreadNames f.selections) ∨ IsFragment document outer ∧
      (SpreadIn document inner outer ∨
        ∃ f ∈ added, f.name = inner ∧ ∀ name ∈ spreadNames f.selections, SpreadIn document name outer) := by
  obtain ⟨f', hf', hin⟩ := hs
  rcases fragment?_append_added hf' with ⟨hf, hname⟩ | hf
  · exact .inl ⟨f', hf, hname, hin⟩
  · have hrel := rel_fragment? hr outer
    rw [hf] at hrel
    generalize hfound : fragment? document outer = found at hrel
    cases hrel with
    | @some f _ hff =>
      refine .inr ⟨Option.isSome_iff_exists.2 ⟨f, hfound⟩, ?_⟩
      rcases SpreadsLess.of_rewritten h.not_mem_spreadNames h.less hff.2 inner hin with hold | ⟨g, hg, hname, hless⟩
      · exact .inl ⟨f, hfound, hold⟩
      · exact .inr ⟨g, hg, hname, fun name hm => ⟨f, hfound, hless name hm⟩⟩

/-- **Spreading stays well-founded.** -/
theorem wellFounded_rewritten (h : IsOutlined rule added document)
    (hr : List.Forall₂ (Definition.Rewritten rule) document rewritten) (hwf : WellFounded (SpreadIn document))
    (hknown : ∀ f ∈ fragments document, ∀ inner ∈ spreadNames f.selections, IsFragment document inner) :
    WellFounded (SpreadIn (rewritten ++ added.toList.map .fragment)) := by
  have hspread : ∀ {inner outer}, SpreadIn document inner outer → IsFragment document inner := by
    rintro inner outer ⟨f, hf, hin⟩
    exact hknown f (List.mem_filterMap.2 ⟨_, (mem_of_fragment? hf).1, rfl⟩) inner hin
  -- the added fragment is accessible if what it spreads is
  have hadded : ∀ f ∈ added,
      (∀ name ∈ spreadNames f.selections, Acc (SpreadIn (rewritten ++ added.toList.map .fragment)) name) →
        Acc (SpreadIn (rewritten ++ added.toList.map .fragment)) f.name := by
    intro f hf hbelow
    refine Acc.intro _ fun inner hs => ?_
    rcases h.spreadIn_cases hr hs with ⟨g, hg, -, hm⟩ | ⟨hisf, -⟩
    · obtain rfl : g = f := Option.some.inj (hg.symm.trans hf)
      exact hbelow inner hm
    · exact absurd hisf (h.not_isFragment hf)
  have hold : ∀ name, IsFragment document name → Acc (SpreadIn (rewritten ++ added.toList.map .fragment)) name := by
    intro name
    induction name using hwf.induction with
    | _ name ih =>
      intro hisf
      refine Acc.intro _ fun inner hs => ?_
      rcases h.spreadIn_cases hr hs with ⟨f, hf, rfl, -⟩ | ⟨-, hs | ⟨f, hf, rfl, hless⟩⟩
      · exact absurd hisf (h.not_isFragment hf)
      · exact ih inner hs (hspread hs)
      · exact hadded f hf fun below hm => ih below (hless below hm) (hspread (hless below hm))
  refine ⟨fun name => Acc.intro _ fun inner hs => ?_⟩
  rcases h.spreadIn_cases hr hs with ⟨f, hf, -, hm⟩ | ⟨-, hs | ⟨f, hf, rfl, hless⟩⟩
  · exact hold inner (h.known f hf inner hm)
  · exact hold inner (hspread hs)
  · exact hadded f hf fun below hm => hold below (h.known f hf below hm)

/-- Fragments of the document are fragments of the rewritten one. -/
theorem isFragment_rewritten (hr : List.Forall₂ (Definition.Rewritten rule) document rewritten) {name : String}
    (hisf : IsFragment document name) : IsFragment (rewritten ++ added.toList.map .fragment) name := by
  obtain ⟨f, hf⟩ := Option.isSome_iff_exists.1 hisf
  have hrel := rel_fragment? hr name
  rw [hf] at hrel
  generalize hfound : fragment? rewritten name = found at hrel
  cases hrel with
  | @some _ f' _ =>
    rw [IsFragment, fragment?, fragments_append, List.reverse_append, List.find?_append, Option.isSome_or]
    rw [fragment?] at hfound
    rw [hfound]
    exact Bool.or_true _

theorem isFragment_added {f : Fragment} (hf : f ∈ added) :
    IsFragment (rewritten ++ added.toList.map .fragment) f.name := by
  have hmem : f ∈ fragments (rewritten ++ added.toList.map .fragment) := by
    rw [fragments_append, fragments_map]
    exact List.mem_append_right _ (Option.mem_toList.2 hf)
  rw [IsFragment, fragment?, List.find?_isSome]
  exact ⟨f, List.mem_reverse.2 hmem, by simp⟩

/-- Selections that spread no more than known fragments do so after rewriting. -/
theorem known_rewritten (hr : List.Forall₂ (Definition.Rewritten rule) document rewritten)
    {selections selections' : List Selection} (hless : SpreadsLess added selections selections')
    (hknown : ∀ name ∈ spreadNames selections, IsFragment document name) :
    ∀ name ∈ spreadNames selections', IsFragment (rewritten ++ added.toList.map .fragment) name := by
  intro name hname
  rcases hless name hname with hname | ⟨f, hf, rfl, -⟩
  · exact isFragment_rewritten hr (hknown name hname)
  · exact isFragment_added hf

end IsOutlined

/-! ## Operations of rewritten documents -/

/-- An operation without its selections. -/
def Operation.withoutSelections (o : Operation) : Operation := { o with selections := [] }

theorem map_operations_of_forall₂ (h : List.Forall₂ (Definition.Rewritten rule) document rewritten) :
    (operations rewritten).map (·.withoutSelections) = (operations document).map (·.withoutSelections) := by
  induction h with
  | nil => rfl
  | @cons d d' rest rest' hd _ ih =>
    cases hd with
    | operation _ => exact congrArg (_ :: ·) ih
    | fragment _ => exact ih
    | same =>
      cases d with
      | operation o => exact congrArg (_ :: ·) ih
      | fragment f | schema s | schemaExtension s | type t | typeExtension t | directive d => exact ih

theorem forall₂_operations_rewritten (h : List.Forall₂ (Definition.Rewritten rule) document rewritten) :
    List.Forall₂ (fun o o' : Operation => Rewritten rule o.selections o'.selections) (operations document)
      (operations rewritten) := by
  induction h with
  | nil => exact .nil
  | @cons d d' rest rest' hd _ ih =>
    cases hd with
    | operation h => exact .cons h ih
    | fragment _ => exact ih
    | same =>
      cases d with
      | operation o => exact .cons (.refl _) ih
      | fragment f | schema s | schemaExtension s | type t | typeExtension t | directive d => exact ih

theorem operations_append_added :
    operations (document ++ added.toList.map .fragment) = operations document := by
  rw [operations, operations, List.filterMap_append]
  cases added <;> simp

/-- Inlining keeps operations but for their selections. -/
theorem map_operations_of_inline {inlined : Document} (hi : inline document = .ok inlined) :
    (operations inlined).map (·.withoutSelections) = (operations document).map (·.withoutSelections) := by
  have hops : List.Forall₂ (IsInlined document) (operations document) (operations inlined) := forall₂_operations hi
  rw [eq_comm, ← List.forall₂_eq_eq_eq, List.forall₂_map_left_iff, List.forall₂_map_right_iff]
  refine hops.imp fun o o' ho => ?_
  rw [ho.2]
  rfl

/-- What is in one of two related lists is related to something in the other. -/
theorem exists_of_mem_forall₂ {α β : Type} {R : α → β → Prop} {as : List α} {bs : List β} (h : List.Forall₂ R as bs)
    {b : β} (hb : b ∈ bs) : ∃ a ∈ as, R a b := by
  induction h with
  | nil => cases hb
  | @cons a b' as bs hab _ ih =>
    rcases List.mem_cons.1 hb with rfl | hb
    · exact ⟨a, List.mem_cons_self, hab⟩
    · obtain ⟨a', ha', hr⟩ := ih hb
      exact ⟨a', List.mem_cons_of_mem _ ha', hr⟩

/-- **An accepted document that is rewritten can be inlined**, to the same operations but for their selections. -/
theorem exists_inline_rewritten {schema : Schema} (ha : Accepts schema document) (ho : IsOutlined rule added document)
    (h : DocumentRewritten rule added document document') :
    ∃ inlined inlined', inline document = .ok inlined ∧ inline document' = .ok inlined' ∧
      (operations inlined).map (·.withoutSelections) = (operations inlined').map (·.withoutSelections) := by
  obtain ⟨rewritten, hr, rfl⟩ := h
  have hfragments : ∀ f ∈ fragments document, ∀ inner ∈ spreadNames f.selections, IsFragment document inner :=
    fun f hf inner hm => ha.isFragment_of_spread (mem_of_mem_fragments hf) (fun _ hv => List.mem_append_right _ hv) hm
  have hoperations : ∀ o ∈ operations document, ∀ inner ∈ spreadNames o.selections, IsFragment document inner :=
    fun o ho inner hm => ha.isFragment_of_spread (mem_of_mem_operations ho) (fun _ hv => List.mem_append_right _ hv) hm
  obtain ⟨inlined, hi⟩ := ha.exists_inline
  have hwf := ho.wellFounded_rewritten hr ha.wellFounded_spreadIn hfragments
  have hinlined : ∃ inlined', inline (rewritten ++ added.toList.map .fragment) = .ok inlined' := by
    refine exists_inline_of_areKnown (fun name => (WellFounded.irrefl hwf.transGen).irrefl name) fun o' hmem => ?_
    rw [operations_append_added] at hmem
    refine areKnown_of_fragments (fun f' hf' => ?_) ?_
    · rw [fragments_append, fragments_map, List.mem_append] at hf'
      rcases hf' with hf' | hf'
      · obtain ⟨f, hf, -, hff⟩ := exists_of_mem_forall₂ (forall₂_fragments hr) hf'
        exact IsOutlined.known_rewritten hr (.of_rewritten ho.not_mem_spreadNames ho.less hff) (hfragments f hf)
      · exact fun inner hm => IsOutlined.isFragment_rewritten hr (ho.known f' (Option.mem_toList.1 hf') inner hm)
    · obtain ⟨o, hmem, hoo⟩ := exists_of_mem_forall₂ (forall₂_operations_rewritten hr) hmem
      exact IsOutlined.known_rewritten hr (.of_rewritten ho.not_mem_spreadNames ho.less hoo) (hoperations o hmem)
  obtain ⟨inlined', hi'⟩ := hinlined
  refine ⟨inlined, inlined', hi, hi', ?_⟩
  rw [map_operations_of_inline hi, map_operations_of_inline hi', operations_append_added, map_operations_of_forall₂ hr]

end

end FixtureCheck.GraphQL
