import FixtureCheck.Proofs.Query.Collected
import Mathlib.Data.List.Forall2

/-!
# Inlining keeps the fields that are collected

An executor visits a fragment once where inlining copies it for every spread, so the collected lists differ; the
collected fields do not. `Inlined` relates selections to those that inlining makes of them, in any order and however
often. Selections so related lead to fields so related (`Inlined.exists_leadsTo`, `Inlined.exists_leadsTo_of_inlined`),
which makes the selections at each position of a response related (`Inlined.selectionsBelow`). So a document without
cycles collects what it collects once it is inlined (`inline_keeps_collected`).
-/

namespace FixtureCheck.GraphQL

/-! ## What inlining makes of selections -/

/-- Is a selection replaced by another one, with enough fuel? -/
def InlinesTo (document : Document) (s t : Selection) : Prop := ∃ n, inlineSelection document n s = .ok t

/-- **Are selections those that inlining makes of others**, in any order and however often? -/
structure Inlined (document : Document) (selections inlined : List Selection) : Prop where
  kept : ∀ s ∈ selections, ∃ t ∈ inlined, InlinesTo document s t
  found : ∀ t ∈ inlined, ∃ s ∈ selections, InlinesTo document s t

section

variable {document : Document}

theorem inlineSelections_eq_mapM (n : Nat) : ∀ selections : List Selection,
    inlineSelections document n selections = selections.mapM (inlineSelection document n) := by
  intro selections
  induction selections with
  | nil =>
    rw [inlineSelections]
    rfl
  | cons first rest ih => rw [inlineSelections, List.mapM_cons, ih]

theorem inlined_of_inlineSelections {n : Nat} {selections inlined : List Selection}
    (h : inlineSelections document n selections = .ok inlined) : Inlined document selections inlined := by
  rw [inlineSelections_eq_mapM] at h
  refine ⟨fun s hs => ?_, fun t ht => ?_⟩
  · obtain ⟨t, ht, hf⟩ := mem_mapM h hs
    exact ⟨t, ht, n, hf⟩
  · obtain ⟨s, hs, hf⟩ := mem_of_mapM h ht
    exact ⟨s, hs, n, hf⟩

namespace InlinesTo

theorem field {f : Field} {selections : List Selection} {t : Selection}
    (h : InlinesTo document (.field f selections) t) :
    ∃ inlined, t = .field f inlined ∧ Inlined document selections inlined := by
  obtain ⟨n, h⟩ := h
  obtain ⟨inlined, hi, rfl⟩ := inlineSelection_field_eq_ok.1 h
  exact ⟨inlined, rfl, inlined_of_inlineSelections hi⟩

theorem inline {condition : Option String} {directives : List Directive} {selections : List Selection} {t : Selection}
    (h : InlinesTo document (.inline condition directives selections) t) :
    ∃ inlined, t = .inline condition directives inlined ∧ Inlined document selections inlined := by
  obtain ⟨n, h⟩ := h
  obtain ⟨inlined, hi, rfl⟩ := inlineSelection_inline_eq_ok.1 h
  exact ⟨inlined, rfl, inlined_of_inlineSelections hi⟩

theorem spread {name : String} {directives : List Directive} {t : Selection}
    (h : InlinesTo document (.spread name directives) t) :
    ∃ f inlined, fragment? document name = some f ∧ t = .inline (some f.condition) directives inlined ∧
      Inlined document f.selections inlined := by
  obtain ⟨n, h⟩ := h
  obtain ⟨m, f, inlined, -, hf, hi, rfl⟩ := inlineSelection_spread_eq_ok.1 h
  exact ⟨f, inlined, hf, rfl, inlined_of_inlineSelections hi⟩

/-! What a selection comes from can be told from its shape. -/

theorem of_field {s : Selection} {f : Field} {inlined : List Selection} (h : InlinesTo document s (.field f inlined)) :
    ∃ selections, s = .field f selections ∧ Inlined document selections inlined := by
  cases s with
  | field f' selections =>
    obtain ⟨inlined', heq, hi⟩ := h.field
    cases heq
    exact ⟨selections, rfl, hi⟩
  | inline condition directives selections =>
    obtain ⟨inlined', heq, -⟩ := h.inline
    cases heq
  | spread name directives =>
    obtain ⟨f', inlined', -, heq, -⟩ := h.spread
    cases heq

theorem of_inline {s : Selection} {condition : Option String} {directives : List Directive} {inlined : List Selection}
    (h : InlinesTo document s (.inline condition directives inlined)) :
    (∃ selections, s = .inline condition directives selections ∧ Inlined document selections inlined) ∨
      ∃ name f, s = .spread name directives ∧ fragment? document name = some f ∧ condition = some f.condition ∧
        Inlined document f.selections inlined := by
  cases s with
  | field f' selections =>
    obtain ⟨inlined', heq, -⟩ := h.field
    cases heq
  | inline condition directives selections =>
    obtain ⟨inlined', heq, hi⟩ := h.inline
    cases heq
    exact .inl ⟨selections, rfl, hi⟩
  | spread name directives =>
    obtain ⟨f, inlined', hf, heq, hi⟩ := h.spread
    cases heq
    exact .inr ⟨name, f, rfl, hf, rfl, hi⟩

theorem not_spread {s : Selection} {name : String} {directives : List Directive} :
    ¬ InlinesTo document s (.spread name directives) := by
  intro h
  cases s with
  | field f' selections =>
    obtain ⟨inlined', heq, -⟩ := h.field
    cases heq
  | inline condition directives selections =>
    obtain ⟨inlined', heq, -⟩ := h.inline
    cases heq
  | spread name directives =>
    obtain ⟨f', inlined', -, heq, -⟩ := h.spread
    cases heq

end InlinesTo

end

/-! ## Fragments by name -/

/-- Where names are distinct, what is found under a name is what has it. -/
theorem find?_eq_some_iff_of_nodup {fragments : List Fragment} (hn : (fragments.map (·.name)).Nodup) {name : String}
    {f : Fragment} : fragments.find? (·.name == name) = some f ↔ f ∈ fragments ∧ f.name = name := by
  constructor
  · exact fun h => ⟨List.mem_of_find?_eq_some h, by simpa using List.find?_some h⟩
  · rintro ⟨hf, rfl⟩
    have hsome : (fragments.find? (·.name == f.name)).isSome := List.find?_isSome.2 ⟨f, hf, by simp⟩
    obtain ⟨g, hg⟩ := Option.isSome_iff_exists.1 hsome
    have hname : g.name = f.name := by simpa using List.find?_some hg
    rw [hg, List.inj_on_of_nodup_map hn (List.mem_of_find?_eq_some hg) hf hname]

namespace Execution

theorem fragment?_eq {x : Execution} (hn : (fragmentNames x.document).Nodup) (name : String) :
    x.fragment? name = GraphQL.fragment? x.document name := by
  have hn' : ((fragments x.document).reverse.map (·.name)).Nodup := by
    rw [List.map_reverse, List.nodup_reverse]
    exact hn
  refine Option.ext fun f => ?_
  rw [fragment?, GraphQL.fragment?, find?_eq_some_iff_of_nodup hn, find?_eq_some_iff_of_nodup hn', List.mem_reverse]

end Execution

/-! ## Collected fields -/

/-- Are collected fields the same but for their selections, and these related by inlining? -/
structure InlinedFields (document : Document) (fields fields' : List Selected) : Prop where
  kept : ∀ c ∈ fields, ∃ c' ∈ fields', c'.1 = c.1 ∧ Inlined document c.2 c'.2
  found : ∀ c' ∈ fields', ∃ c ∈ fields, c'.1 = c.1 ∧ Inlined document c.2 c'.2

section

variable {x x' : Execution} {type : String} {selections inlined : List Selection}

/-- Do executions differ in their documents alone? -/
structure Execution.Agrees (x x' : Execution) : Prop where
  schema : x'.schema = x.schema
  holds : x'.holds = x.holds
  typeAt : x'.typeAt = x.typeAt

theorem Execution.Agrees.includes (h : x.Agrees x') (directives : List Directive) :
    x'.includes directives = x.includes directives := by
  simp only [Execution.includes, h.holds]

theorem Execution.Agrees.applies (h : x.Agrees x') : x'.applies = x.applies := by
  funext type condition
  simp only [Execution.applies, h.schema]

namespace Inlined

open Execution

/-- A field that selections lead to is led to once they are inlined. -/
theorem exists_leadsTo (ha : x.Agrees x') (hn : (fragmentNames x.document).Nodup) {c : Selected} {n : Nat}
    (h : LeadsTo x type c n selections) (hi : Inlined x.document selections inlined) :
    ∃ inner, LeadsTo x' type (c.1, inner) 0 inlined ∧ Inlined x.document c.2 inner := by
  induction h generalizing inlined with
  | field mem included =>
    obtain ⟨t, ht, hto⟩ := hi.kept _ mem
    obtain ⟨inner, rfl, hinner⟩ := hto.field
    exact ⟨inner, .field ht ((ha.includes _).trans included), hinner⟩
  | inline mem included meets _ ih =>
    obtain ⟨t, ht, hto⟩ := hi.kept _ mem
    obtain ⟨below, rfl, hbelow⟩ := hto.inline
    obtain ⟨inner, hl, hinner⟩ := ih hbelow
    exact ⟨inner, .inline ht ((ha.includes _).trans included) (ha.applies ▸ meets) hl, hinner⟩
  | spread mem included found meets _ ih =>
    obtain ⟨t, ht, hto⟩ := hi.kept _ mem
    obtain ⟨f, below, hf, rfl, hbelow⟩ := hto.spread
    rw [fragment?_eq hn, hf] at found
    cases found
    obtain ⟨inner, hl, hinner⟩ := ih hbelow
    exact ⟨inner, .inline ht ((ha.includes _).trans included) (by simpa [ha.applies] using meets) hl, hinner⟩

/-- A field that inlined selections lead to is led to before. -/
theorem exists_leadsTo_of_inlined (ha : x.Agrees x') (hn : (fragmentNames x.document).Nodup) {c' : Selected} {n : Nat}
    (h : LeadsTo x' type c' n inlined) (hi : Inlined x.document selections inlined) :
    ∃ m inner, LeadsTo x type (c'.1, inner) m selections ∧ Inlined x.document inner c'.2 := by
  induction h generalizing selections with
  | field mem included =>
    obtain ⟨s, hs, hto⟩ := hi.found _ mem
    obtain ⟨inner, rfl, hinner⟩ := hto.of_field
    exact ⟨0, inner, .field hs ((ha.includes _).symm.trans included), hinner⟩
  | inline mem included meets _ ih =>
    obtain ⟨s, hs, hto⟩ := hi.found _ mem
    have hin := (ha.includes _).symm.trans included
    rw [ha.applies] at meets
    rcases hto.of_inline with ⟨below, rfl, hbelow⟩ | ⟨name, f, rfl, hf, rfl, hbelow⟩
    · obtain ⟨m, inner, hl, hinner⟩ := ih hbelow
      exact ⟨m, inner, .inline hs hin meets hl, hinner⟩
    · obtain ⟨m, inner, hl, hinner⟩ := ih hbelow
      have hfound : x.fragment? name = some f := (fragment?_eq hn name).trans hf
      exact ⟨m + 1, inner, .spread hs hin hfound (by simpa using meets) hl, hinner⟩
  | spread mem included found meets _ ih =>
    obtain ⟨s, hs, hto⟩ := hi.found _ mem
    exact absurd hto InlinesTo.not_spread

/-- **Selections collect the same fields once they are inlined.** -/
theorem inlinedFields (ha : x.Agrees x') (hn : (fragmentNames x.document).Nodup)
    (hi : Inlined x.document selections inlined) (type : String) :
    InlinedFields x.document (x.collect type [] selections) (x'.collect type [] inlined) := by
  refine ⟨fun c hc => ?_, fun c' hc' => ?_⟩
  · obtain ⟨n, hl⟩ := mem_collect.1 hc
    obtain ⟨inner, hl', hinner⟩ := hi.exists_leadsTo ha hn hl
    exact ⟨(c.1, inner), mem_collect.2 ⟨0, hl'⟩, rfl, hinner⟩
  · obtain ⟨n, hl'⟩ := mem_collect.1 hc'
    obtain ⟨m, inner, hl, hinner⟩ := hi.exists_leadsTo_of_inlined ha hn hl'
    exact ⟨(c'.1, inner), mem_collect.2 ⟨m, hl⟩, rfl, hinner⟩

end Inlined

/-! ## Positions -/

open Execution

theorem InlinedFields.selectionsOf {document : Document} {fields fields' : List Selected}
    (h : InlinedFields document fields fields') (key : String) :
    Inlined document (selectionsOf fields key) (selectionsOf fields' key) := by
  refine ⟨fun s hs => ?_, fun t ht => ?_⟩
  · obtain ⟨c, hc, rfl, hin⟩ := mem_selectionsOf.1 hs
    obtain ⟨c', hc', hsame, hi⟩ := h.kept c hc
    obtain ⟨t, ht, hto⟩ := hi.kept s hin
    exact ⟨t, mem_selectionsOf.2 ⟨c', hc', by rw [hsame], ht⟩, hto⟩
  · obtain ⟨c', hc', rfl, hin⟩ := mem_selectionsOf.1 ht
    obtain ⟨c, hc, hsame, hi⟩ := h.found c' hc'
    obtain ⟨s, hs, hto⟩ := hi.found t hin
    exact ⟨s, mem_selectionsOf.2 ⟨c, hc, by rw [hsame], hs⟩, hto⟩

/-- The selections at each position are those that inlining makes of the selections there. -/
theorem Inlined.selectionsBelow (ha : x.Agrees x') (hn : (fragmentNames x.document).Nodup) (place path : Json.Path)
    (hi : Inlined x.document selections inlined) :
    Inlined x.document (x.selectionsBelow place selections path) (x'.selectionsBelow place inlined path) := by
  induction path generalizing place selections inlined with
  | nil => exact hi
  | cons step rest ih =>
    cases step with
    | key key =>
      rw [Execution.selectionsBelow, Execution.selectionsBelow, ha.typeAt]
      exact ih _ ((hi.inlinedFields ha hn _).selectionsOf key)
    | index i => exact ih _ hi

theorem Inlined.fieldsBelow (ha : x.Agrees x') (hn : (fragmentNames x.document).Nodup) (place path : Json.Path)
    (hi : Inlined x.document selections inlined) :
    InlinedFields x.document (x.fieldsBelow place selections path) (x'.fieldsBelow place inlined path) := by
  rw [Execution.fieldsBelow, Execution.fieldsBelow, ha.typeAt]
  exact (hi.selectionsBelow ha hn place path).inlinedFields ha hn _

/-! ## Documents -/

/-- **Do selections of two executions collect the same** at all positions below a place: fields with the same keys,
names and arguments, the own selections of which collect the same in turn, `n` times over? -/
def CollectSame (x x' : Execution) : Nat → Json.Path → List Selection → List Selection → Prop
  | 0, _, _, _ => True
  | n + 1, place, selections, selections' => ∀ path,
    (∀ c ∈ x.fieldsBelow place selections path, ∃ c' ∈ x'.fieldsBelow place selections' path,
      c'.1 = c.1 ∧ CollectSame x x' n (place ++ path ++ [.key c.1.key]) c.2 c'.2) ∧
    ∀ c' ∈ x'.fieldsBelow place selections' path, ∃ c ∈ x.fieldsBelow place selections path,
      c'.1 = c.1 ∧ CollectSame x x' n (place ++ path ++ [.key c.1.key]) c.2 c'.2

theorem Inlined.collectSame (ha : x.Agrees x') (hn : (fragmentNames x.document).Nodup) : ∀ (n : Nat)
    {place : Json.Path} {selections inlined : List Selection}, Inlined x.document selections inlined →
      CollectSame x x' n place selections inlined
  | 0, _, _, _, _ => trivial
  | n + 1, place, selections, inlined, hi => by
    intro path
    have hf := hi.fieldsBelow ha hn place path
    refine ⟨fun c hc => ?_, fun c' hc' => ?_⟩
    · obtain ⟨c', hc', hsame, hinner⟩ := hf.kept c hc
      exact ⟨c', hc', hsame, hinner.collectSame ha hn n⟩
    · obtain ⟨c, hc, hsame, hinner⟩ := hf.found c' hc'
      exact ⟨c, hc, hsame, hinner.collectSame ha hn n⟩

/-- Is an operation another one with its selections inlined? -/
def IsInlined (document : Document) (o o' : Operation) : Prop :=
  Inlined document o.selections o'.selections ∧ o' = { o with selections := o'.selections }

/-- The operations of an inlined document are those of the document with their selections inlined, in order. -/
theorem forall₂_operations {document : Document} : ∀ {definitions inlined : List Definition},
    definitions.filterMapM (inlineDefinition document) = .ok inlined →
      List.Forall₂ (IsInlined document) (operations definitions) (operations inlined)
  | [], inlined, h => by
    cases h
    exact .nil
  | d :: rest, inlined, h => by
    rw [List.filterMapM_cons, bind_eq_ok_iff] at h
    obtain ⟨found, hd, h⟩ := h
    have hrest : ∀ {others : List Definition}, rest.filterMapM (inlineDefinition document) = .ok others →
        List.Forall₂ (IsInlined document) (operations rest) (operations others) := forall₂_operations
    cases d with
    | operation o =>
      rw [inlineDefinition, bind_eq_ok_iff] at hd
      obtain ⟨selections, hs, hd⟩ := hd
      cases hd
      obtain ⟨others, ho, h⟩ := bind_eq_ok_iff.1 h
      cases h
      exact .cons ⟨inlined_of_inlineSelections hs, rfl⟩ (hrest ho)
    | fragment f =>
      cases hd
      exact hrest h
    | schema s | schemaExtension s | type t | typeExtension t | directive d =>
      cases hd
      obtain ⟨others, ho, h⟩ := bind_eq_ok_iff.1 h
      cases h
      have hothers := hrest ho
      exact hothers

/-- Is an operation of an inlined document one of the document but for its selections, and do these collect the same:
whatever the schema, the outcome of the conditions of directives and the types of the objects in the response? -/
structure KeepsCollected (document inlined : Document) (o o' : Operation) : Prop where
  rest : o' = { o with selections := o'.selections }
  collects : ∀ schema holds typeAt n,
    CollectSame ⟨schema, document, holds, typeAt⟩ ⟨schema, inlined, holds, typeAt⟩ n [] o.selections o'.selections

/-- **Inlining keeps the fields that a document collects.** A document of distinct fragments, of which none spreads
itself and whose operations lead to known fragments only, can be inlined. Its operations then collect the same fields as
before at every position of a response, down to what the selections of each of these fields collect. -/
theorem inline_keeps_collected {document : Document} (hn : (fragmentNames document).Nodup)
    (hno : HasNoCycle document) (hall : ∀ o ∈ operations document, AreKnown document (spreadNames o.selections)) :
    ∃ inlined, inline document = .ok inlined ∧
      List.Forall₂ (KeepsCollected document inlined) (operations document) (operations inlined) := by
  obtain ⟨inlined, hi⟩ := exists_inline_of_areKnown hno hall
  refine ⟨inlined, hi, (forall₂_operations hi).imp ?_⟩
  rintro o o' ⟨hs, ho⟩
  refine ⟨ho, fun schema holds typeAt n => ?_⟩
  have ha : Execution.Agrees ⟨schema, document, holds, typeAt⟩ ⟨schema, inlined, holds, typeAt⟩ := ⟨rfl, rfl, rfl⟩
  exact hs.collectSame ha hn n

/-- Pets are described twice, once on a condition, and cats are named once more. -/
def describedTwice : Document := [
  .operation ⟨none, .query, none, [], [], [.field ⟨none, "pets", [], []⟩ [
    .spread "Described" [⟨"include", [⟨"if", .variable "all", 0⟩], 0⟩], .spread "Described" [], .spread "Named" []]]⟩,
  .fragment ⟨none, "Described", "Pet", [], [.field ⟨none, "__typename", [], []⟩ [], .spread "Named" []]⟩,
  .fragment ⟨none, "Named", "Cat", [], [.field ⟨none, "name", [], []⟩ []]⟩]

theorem describedTwice_keeps_collected :
    (fragmentNames describedTwice).Nodup ∧ HasNoCycle describedTwice ∧
      (∀ o ∈ operations describedTwice, AreKnown describedTwice (spreadNames o.selections)) ∧
      ∃ inlined, inline describedTwice = .ok inlined ∧
        List.Forall₂ (KeepsCollected describedTwice inlined) (operations describedTwice) (operations inlined) := by
  have hn : (fragmentNames describedTwice).Nodup := by decide
  have hno : HasNoCycle describedTwice :=
    hasNoCycle_of_rank (fun name => if name = "Described" then 1 else 0) (by decide)
  have hall : ∀ o ∈ operations describedTwice, AreKnown describedTwice (spreadNames o.selections) :=
    fun o ho => areKnown_of_fragments (by decide) (by revert o; decide)
  exact ⟨hn, hno, hall, inline_keeps_collected hn hno hall⟩

end

end FixtureCheck.GraphQL
