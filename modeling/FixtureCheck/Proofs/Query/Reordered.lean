import FixtureCheck.Proofs.Query.Typed
import Mathlib.Data.List.Forall2

/-!
# Selections in another order

`Reordered` relates selections to those that come of them if selection sets are put in another order, at any depth.
Documents are related definition by definition. `InlinesWithin` is inlining as a relation between selections; it
respects the order, be it that of the selections or that inside the fragments. So if a document can be inlined, so can
one in another order, and the inlined documents are related (`reordered_inline`).
-/

namespace FixtureCheck.GraphQL

/-- **Are selections others in another order**, or with the selections within them in another order? -/
inductive Reordered : List Selection → List Selection → Prop where
  | nil : Reordered [] []
  | field {f : Field} {inner inner' rest rest' : List Selection} (below : Reordered inner inner')
      (others : Reordered rest rest') : Reordered (.field f inner :: rest) (.field f inner' :: rest')
  | inline {condition : Option String} {directives : List Directive} {inner inner' rest rest' : List Selection}
      (below : Reordered inner inner') (others : Reordered rest rest') :
      Reordered (.inline condition directives inner :: rest) (.inline condition directives inner' :: rest')
  | spread {name : String} {directives : List Directive} {rest rest' : List Selection} (others : Reordered rest rest') :
      Reordered (.spread name directives :: rest) (.spread name directives :: rest')
  | swap (first second : Selection) (rest : List Selection) :
      Reordered (first :: second :: rest) (second :: first :: rest)
  | trans {selections between selections' : List Selection} (first : Reordered selections between)
      (second : Reordered between selections') : Reordered selections selections'

namespace Reordered

variable {selections selections' rest rest' : List Selection}

theorem refl : ∀ selections : List Selection, Reordered selections selections
  | [] => .nil
  | .field _ inner :: rest => .field (refl inner) (refl rest)
  | .inline _ _ inner :: rest => .inline (refl inner) (refl rest)
  | .spread _ _ :: rest => .spread (refl rest)

theorem cons (first : Selection) (h : Reordered rest rest') : Reordered (first :: rest) (first :: rest') := by
  cases first with
  | field f inner => exact .field (refl inner) h
  | inline condition directives inner => exact .inline (refl inner) h
  | spread name directives => exact .spread h

theorem symm (h : Reordered selections selections') : Reordered selections' selections := by
  induction h with
  | nil => exact .nil
  | field _ _ ih ih' => exact .field ih ih'
  | inline _ _ ih ih' => exact .inline ih ih'
  | spread _ ih => exact .spread ih
  | swap first second rest => exact .swap second first rest
  | trans _ _ ih ih' => exact .trans ih' ih

/-- Selections in another order are reordered. -/
theorem of_perm (h : selections.Perm selections') : Reordered selections selections' := by
  induction h with
  | nil => exact .nil
  | cons first _ ih => exact .cons first ih
  | swap first second rest => exact .swap second first rest
  | trans _ _ ih ih' => exact .trans ih ih'

theorem length_eq (h : Reordered selections selections') : selections.length = selections'.length := by
  induction h with
  | nil => rfl
  | field _ _ _ ih => rw [List.length_cons, List.length_cons, ih]
  | inline _ _ _ ih => rw [List.length_cons, List.length_cons, ih]
  | spread _ ih => rw [List.length_cons, List.length_cons, ih]
  | swap first second rest => rfl
  | trans _ _ ih ih' => rw [ih, ih']

theorem eq_nil_iff (h : Reordered selections selections') : selections = [] ↔ selections' = [] := by
  rw [← List.length_eq_zero_iff, ← List.length_eq_zero_iff, h.length_eq]

end Reordered

/-- Is a definition another one with its selections reordered? -/
inductive Definition.Reordered : Definition → Definition → Prop where
  | operation {o : Operation} {selections : List Selection} (h : GraphQL.Reordered o.selections selections) :
      Definition.Reordered (.operation o) (.operation { o with selections })
  | fragment {f : Fragment} {selections : List Selection} (h : GraphQL.Reordered f.selections selections) :
      Definition.Reordered (.fragment f) (.fragment { f with selections })
  | same (d : Definition) : Definition.Reordered d d

/-- **Is a document another one with the selections inside its selection sets in another order?** -/
def DocumentReordered (document document' : Document) : Prop := List.Forall₂ Definition.Reordered document document'

theorem Definition.Reordered.symm {d d' : Definition} (h : d.Reordered d') : d'.Reordered d := by
  cases h with
  | operation h => exact .operation h.symm
  | fragment h => exact .fragment h.symm
  | same => exact .same d

theorem DocumentReordered.symm {document document' : Document} (h : DocumentReordered document document') :
    DocumentReordered document' document := h.flip.imp fun _ _ => Definition.Reordered.symm

/-! ## Fragments and operations -/

section

variable {document document' : Document}

/-- Is a fragment another one with its selections reordered? -/
def Fragment.Reordered (f f' : Fragment) : Prop :=
  f' = { f with selections := f'.selections } ∧ GraphQL.Reordered f.selections f'.selections

/-- Is an operation another one with its selections reordered? -/
def Operation.Reordered (o o' : Operation) : Prop :=
  o' = { o with selections := o'.selections } ∧ GraphQL.Reordered o.selections o'.selections

theorem Operation.Reordered.symm {o o' : Operation} (h : o.Reordered o') : o'.Reordered o :=
  ⟨by rw [h.1], h.2.symm⟩

theorem DocumentReordered.fragments (h : DocumentReordered document document') :
    List.Forall₂ Fragment.Reordered (fragments document) (fragments document') := by
  induction h with
  | nil => exact .nil
  | @cons d d' rest rest' hd _ ih =>
    cases hd with
    | operation _ => exact ih
    | fragment h => exact .cons ⟨rfl, h⟩ ih
    | same =>
      cases d with
      | fragment f => exact .cons ⟨rfl, .refl _⟩ ih
      | operation o | schema s | schemaExtension s | type t | typeExtension t | directive d => exact ih

theorem DocumentReordered.operations (h : DocumentReordered document document') :
    List.Forall₂ Operation.Reordered (operations document) (operations document') := by
  induction h with
  | nil => exact .nil
  | @cons d d' rest rest' hd _ ih =>
    cases hd with
    | operation h => exact .cons ⟨rfl, h⟩ ih
    | fragment _ => exact ih
    | same =>
      cases d with
      | operation o => exact .cons ⟨rfl, .refl _⟩ ih
      | fragment f | schema s | schemaExtension s | type t | typeExtension t | directive d => exact ih

/-- What is found by a test that related values pass alike is related. -/
theorem rel_find?_of_forall₂ {α : Type} {R : α → α → Prop} {p : α → Bool} (hp : ∀ a b, R a b → p b = p a)
    {as bs : List α} (h : List.Forall₂ R as bs) : Option.Rel R (as.find? p) (bs.find? p) := by
  induction h with
  | nil => exact .none
  | @cons a b as bs hab _ ih =>
    rw [List.find?_cons, List.find?_cons, hp a b hab]
    cases p a with
    | true => exact .some hab
    | false => exact ih

theorem DocumentReordered.exists_fragment? (h : DocumentReordered document document') {name : String} {f : Fragment}
    (hf : fragment? document name = some f) : ∃ f', fragment? document' name = some f' ∧ f.Reordered f' := by
  have hrel : Option.Rel Fragment.Reordered (fragment? document name) (fragment? document' name) :=
    rel_find?_of_forall₂ (fun f f' hff => by rw [hff.1]) (List.rel_reverse h.fragments)
  rw [hf] at hrel
  generalize fragment? document' name = found at hrel
  cases hrel with
  | some hff => exact ⟨_, rfl, hff⟩

end

/-! ## Inlining -/

section

variable {document document' : Document}

/-- Do selections come of others by inlining, through at most `n` fragments within each other? -/
inductive InlinesWithin (document : Document) : Nat → List Selection → List Selection → Prop where
  | nil {n : Nat} : InlinesWithin document n [] []
  | field {n : Nat} {f : Field} {inner inner' rest rest' : List Selection}
      (below : InlinesWithin document n inner inner') (others : InlinesWithin document n rest rest') :
      InlinesWithin document n (.field f inner :: rest) (.field f inner' :: rest')
  | inline {n : Nat} {condition : Option String} {directives : List Directive}
      {inner inner' rest rest' : List Selection} (below : InlinesWithin document n inner inner')
      (others : InlinesWithin document n rest rest') :
      InlinesWithin document n (.inline condition directives inner :: rest)
        (.inline condition directives inner' :: rest')
  | spread {n : Nat} {name : String} {directives : List Directive} {f : Fragment} {inner' rest rest' : List Selection}
      (found : fragment? document name = some f) (below : InlinesWithin document n f.selections inner')
      (others : InlinesWithin document (n + 1) rest rest') :
      InlinesWithin document (n + 1) (.spread name directives :: rest)
        (.inline (some f.condition) directives inner' :: rest')

theorem inlinesWithin_of_eq_ok : ∀ (n : Nat) (selections : List Selection) {inlined : List Selection},
    inlineSelections document n selections = .ok inlined → InlinesWithin document n selections inlined
  | n, [], inlined, h => by
    rw [inlineSelections] at h
    cases h
    exact .nil
  | n, .field f inner :: rest, inlined, h => by
    obtain ⟨first, others, hfirst, hothers, rfl⟩ := inlineSelections_cons_eq_ok.1 h
    obtain ⟨below, hbelow, rfl⟩ := inlineSelection_field_eq_ok.1 hfirst
    exact .field (inlinesWithin_of_eq_ok n inner hbelow) (inlinesWithin_of_eq_ok n rest hothers)
  | n, .inline condition directives inner :: rest, inlined, h => by
    obtain ⟨first, others, hfirst, hothers, rfl⟩ := inlineSelections_cons_eq_ok.1 h
    obtain ⟨below, hbelow, rfl⟩ := inlineSelection_inline_eq_ok.1 hfirst
    exact .inline (inlinesWithin_of_eq_ok n inner hbelow) (inlinesWithin_of_eq_ok n rest hothers)
  | n, .spread name directives :: rest, inlined, h => by
    obtain ⟨first, others, hfirst, hothers, rfl⟩ := inlineSelections_cons_eq_ok.1 h
    obtain ⟨m, f, below, hn, hf, hbelow, rfl⟩ := inlineSelection_spread_eq_ok.1 hfirst
    have hinner := inlinesWithin_of_eq_ok m f.selections hbelow
    have hrest := inlinesWithin_of_eq_ok n rest hothers
    subst hn
    exact .spread hf hinner hrest
termination_by n selections => (n, sizeOf selections)

theorem InlinesWithin.eq_ok {n : Nat} {selections inlined : List Selection}
    (h : InlinesWithin document n selections inlined) : inlineSelections document n selections = .ok inlined := by
  induction h with
  | nil =>
    rw [inlineSelections]
    rfl
  | field _ _ ih ih' =>
    exact inlineSelections_cons_eq_ok.2 ⟨_, _, inlineSelection_field_eq_ok.2 ⟨_, ih, rfl⟩, ih', rfl⟩
  | inline _ _ ih ih' =>
    exact inlineSelections_cons_eq_ok.2 ⟨_, _, inlineSelection_inline_eq_ok.2 ⟨_, ih, rfl⟩, ih', rfl⟩
  | spread found _ _ ih ih' =>
    exact inlineSelections_cons_eq_ok.2 ⟨_, _, inlineSelection_spread_eq_ok.2 ⟨_, _, _, rfl, found, ih, rfl⟩, ih', rfl⟩

/-- **Inlining is a relation** between selections and what comes of them. -/
theorem inlineSelections_eq_ok_iff {n : Nat} {selections inlined : List Selection} :
    inlineSelections document n selections = .ok inlined ↔ InlinesWithin document n selections inlined :=
  ⟨inlinesWithin_of_eq_ok n selections, InlinesWithin.eq_ok⟩

/-- The first selection is inlined on its own. -/
theorem InlinesWithin.uncons {n : Nat} {first : Selection} {rest inlined : List Selection}
    (h : InlinesWithin document n (first :: rest) inlined) :
    ∃ first' rest', inlined = first' :: rest' ∧ InlinesWithin document n rest rest' ∧
      ∀ {others others' : List Selection}, InlinesWithin document n others others' →
        InlinesWithin document n (first :: others) (first' :: others') := by
  cases h with
  | field below others => exact ⟨_, _, rfl, others, .field below⟩
  | inline below others => exact ⟨_, _, rfl, others, .inline below⟩
  | spread found below others => exact ⟨_, _, rfl, others, .spread found below⟩

/-- Selections in another order are inlined to selections in another order. -/
theorem InlinesWithin.of_reordered {n : Nat} {selections selections' inlined : List Selection}
    (hi : InlinesWithin document n selections inlined) (h : Reordered selections selections') :
    ∃ inlined', InlinesWithin document n selections' inlined' ∧ Reordered inlined inlined' := by
  induction h generalizing inlined with
  | nil => exact ⟨inlined, hi, .refl _⟩
  | field _ _ ih ih' =>
    cases hi with
    | field below others =>
      obtain ⟨inner', hinner', hr⟩ := ih below
      obtain ⟨rest', hrest', hr'⟩ := ih' others
      exact ⟨_, .field hinner' hrest', .field hr hr'⟩
  | inline _ _ ih ih' =>
    cases hi with
    | inline below others =>
      obtain ⟨inner', hinner', hr⟩ := ih below
      obtain ⟨rest', hrest', hr'⟩ := ih' others
      exact ⟨_, .inline hinner' hrest', .inline hr hr'⟩
  | spread _ ih =>
    cases hi with
    | spread found below others =>
      obtain ⟨rest', hrest', hr⟩ := ih others
      exact ⟨_, .spread found below hrest', .cons _ hr⟩
  | swap first second rest =>
    obtain ⟨first', others, rfl, hothers, hfirst⟩ := hi.uncons
    obtain ⟨second', rest', rfl, hrest, hsecond⟩ := hothers.uncons
    exact ⟨_, hsecond (hfirst hrest), .swap first' second' rest'⟩
  | trans _ _ ih ih' =>
    obtain ⟨between, hb, hr⟩ := ih hi
    obtain ⟨inlined', hi', hr'⟩ := ih' hb
    exact ⟨inlined', hi', hr.trans hr'⟩

/-- **Selections are inlined to selections in another order if the fragments are in another order.** -/
theorem InlinesWithin.of_documentReordered {n : Nat} {selections inlined : List Selection}
    (hi : InlinesWithin document n selections inlined) (h : DocumentReordered document document') :
    ∃ inlined', InlinesWithin document' n selections inlined' ∧ Reordered inlined inlined' := by
  induction hi with
  | nil => exact ⟨[], .nil, .nil⟩
  | field _ _ ih ih' =>
    obtain ⟨below', hbelow', hr⟩ := ih
    obtain ⟨others', hothers', hr'⟩ := ih'
    exact ⟨_, .field hbelow' hothers', .field hr hr'⟩
  | inline _ _ ih ih' =>
    obtain ⟨below', hbelow', hr⟩ := ih
    obtain ⟨others', hothers', hr'⟩ := ih'
    exact ⟨_, .inline hbelow' hothers', .inline hr hr'⟩
  | spread found _ _ ih ih' =>
    -- the fragment of the other document is another one twice over: in itself and in what it spreads
    obtain ⟨between, hbetween, hr⟩ := ih
    obtain ⟨f', hf', hrest, hfr⟩ := h.exists_fragment? found
    obtain ⟨below', hbelow', hr'⟩ := hbetween.of_reordered hfr
    obtain ⟨others', hothers', hr''⟩ := ih'
    refine ⟨_, .spread hf' hbelow' hothers', ?_⟩
    rw [hrest]
    exact .inline (hr.trans hr') hr''

theorem Definition.Reordered.inlineDefinition (h : DocumentReordered document document') {d d' : Definition}
    (hd : d.Reordered d') {found : Option Definition} (hi : inlineDefinition document d = .ok found) :
    ∃ found', GraphQL.inlineDefinition document' d' = .ok found' ∧ Option.Rel Definition.Reordered found found' := by
  have hlength : (fragments document).length = (fragments document').length := h.fragments.length_eq
  have hoperation : ∀ {o : Operation} {selections : List Selection}, GraphQL.Reordered o.selections selections →
      GraphQL.inlineDefinition document (.operation o) = .ok found →
        ∃ found', GraphQL.inlineDefinition document' (.operation { o with selections }) = .ok found' ∧
          Option.Rel Definition.Reordered found found' := by
    intro o selections hr hi
    obtain ⟨inlined, hs, hfound⟩ := bind_eq_ok_iff.1 hi
    cases hfound
    obtain ⟨between, hb, hr'⟩ := (inlineSelections_eq_ok_iff.1 hs).of_documentReordered h
    obtain ⟨inlined', hs', hr''⟩ := hb.of_reordered hr
    rw [hlength] at hs'
    exact ⟨some (.operation { o with selections := inlined' }), bind_eq_ok_iff.2 ⟨inlined', hs'.eq_ok, rfl⟩,
      .some (.operation (hr'.trans hr''))⟩
  cases hd with
  | operation hr => exact hoperation hr hi
  | fragment hr =>
    cases hi
    exact ⟨none, rfl, .none⟩
  | same =>
    cases d with
    | operation o => exact hoperation (.refl _) hi
    | fragment f =>
      cases hi
      exact ⟨none, rfl, .none⟩
    | schema s | schemaExtension s | type t | typeExtension t | directive d =>
      cases hi
      exact ⟨_, rfl, .some (.same _)⟩

/-- Results for related values are related if those for each of them are. -/
theorem exists_filterMapM_of_forall₂ {ε α β : Type} {R : α → α → Prop} {S : β → β → Prop}
    {f g : α → Except ε (Option β)}
    (hfg : ∀ a a', R a a' → ∀ found, f a = .ok found → ∃ found', g a' = .ok found' ∧ Option.Rel S found found') :
    ∀ {as as' : List α} {bs : List β}, List.Forall₂ R as as' → as.filterMapM f = .ok bs →
      ∃ bs', as'.filterMapM g = .ok bs' ∧ List.Forall₂ S bs bs'
  | [], [], bs, .nil, h => by
    cases h
    exact ⟨[], rfl, .nil⟩
  | a :: as, a' :: as', bs, .cons ha has, h => by
    rw [List.filterMapM_cons, bind_eq_ok_iff] at h
    obtain ⟨found, hfound, h⟩ := h
    obtain ⟨found', hfound', hrel⟩ := hfg a a' ha found hfound
    rw [List.filterMapM_cons]
    cases hrel with
    | none =>
      obtain ⟨bs', hbs', hs⟩ := exists_filterMapM_of_forall₂ hfg has h
      exact ⟨bs', bind_eq_ok_iff.2 ⟨none, hfound', hbs'⟩, hs⟩
    | @some b b' hb =>
      obtain ⟨others, hothers, h⟩ := bind_eq_ok_iff.1 h
      cases h
      obtain ⟨others', hothers', hs⟩ := exists_filterMapM_of_forall₂ hfg has hothers
      exact ⟨b' :: others', bind_eq_ok_iff.2 ⟨some b', hfound', bind_eq_ok_iff.2 ⟨others', hothers', rfl⟩⟩, .cons hb hs⟩

/-- **A document in another order is inlined to a document in another order.** -/
theorem reordered_inline (h : DocumentReordered document document') {inlined : Document}
    (hi : inline document = .ok inlined) :
    ∃ inlined', inline document' = .ok inlined' ∧ DocumentReordered inlined inlined' :=
  exists_filterMapM_of_forall₂ (fun _ _ hd _ => hd.inlineDefinition h) h hi

end

end FixtureCheck.GraphQL
