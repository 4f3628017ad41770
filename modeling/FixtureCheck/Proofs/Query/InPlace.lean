import FixtureCheck.Fixture.Check
import FixtureCheck.Proofs.Query.Rewritten

/-!
# Spreads read in place

`Meets` reads selections with each spread read on in its fragment, and lists the names of the spreads met. A document
without cycles can be read to the end, in one way (`exists_meets`, `Meets.unique`). Inlining fails at the first name met
that no fragment has (`tells_inline`), and otherwise leaves a document without spreads and fragments that is the same
but for the spreads (`isReadOut_inline`). Inlining it again changes nothing, so a fixture is compared with it as with
the document that it comes from (`inline_in_place`).
-/

namespace FixtureCheck.GraphQL

section

variable {document : Document}

/-! ## Reading -/

/-- **The spreads met when selections are read**, in order: a spread is met, and then what is in its fragment, if there
is one. -/
inductive Meets (document : Document) : List Selection → List String → Prop where
  | nil : Meets document [] []
  | field {f : Field} {inner rest : List Selection} {names others : List String} (below : Meets document inner names)
      (after : Meets document rest others) : Meets document (.field f inner :: rest) (names ++ others)
  | inline {condition : Option String} {directives : List Directive} {inner rest : List Selection}
      {names others : List String} (below : Meets document inner names) (after : Meets document rest others) :
      Meets document (.inline condition directives inner :: rest) (names ++ others)
  | unknown {name : String} {directives : List Directive} {rest : List Selection} {others : List String}
      (missing : fragment? document name = none) (after : Meets document rest others) :
      Meets document (.spread name directives :: rest) (name :: others)
  | spread {name : String} {directives : List Directive} {f : Fragment} {rest : List Selection}
      {names others : List String} (found : fragment? document name = some f)
      (below : Meets document f.selections names) (after : Meets document rest others) :
      Meets document (.spread name directives :: rest) (name :: (names ++ others))

/-- Selections are read in one way. -/
theorem Meets.unique {selections : List Selection} {names names' : List String} (h : Meets document selections names)
    (h' : Meets document selections names') : names = names' := by
  induction h generalizing names' with
  | nil =>
    cases h'
    rfl
  | field _ _ ih ih' =>
    cases h' with
    | field below after => rw [ih below, ih' after]
  | inline _ _ ih ih' =>
    cases h' with
    | inline below after => rw [ih below, ih' after]
  | unknown missing _ ih =>
    cases h' with
    | unknown _ after => rw [ih after]
    | spread found _ _ =>
      rw [missing] at found
      cases found
  | spread found _ _ ih ih' =>
    cases h' with
    | unknown missing _ =>
      rw [missing] at found
      cases found
    | spread found' below after =>
      rw [found] at found'
      cases found'
      rw [ih below, ih' after]

/-- Where no fragment spreads itself, no infinite way leads on from a name: each name on it is that of a fragment that
is not on the path to it. -/
theorem acc_of_hasNoCycle (hno : HasNoCycle document) : ∀ {n : Nat} {path : List String}, path.Nodup →
    (∀ x ∈ path, x ∈ fragmentNames document) → (fragments document).length ≤ n + path.length →
      ∀ {name : String}, (∀ outer ∈ path, Relation.TransGen (SpreadIn document) name outer) →
        Acc (SpreadIn document) name := by
  intro n
  induction n with
  | zero =>
    intro path hn hpath hlen name hleads
    cases hf : fragment? document name with
    | none => exact acc_of_fragment?_eq_none hf
    | some f =>
      have hnew : name ∉ path := fun hm => hno name (hleads name hm)
      have := length_lt_of_path hn hpath hnew (mem_fragmentNames hf)
      omega
  | succ n ih =>
    intro path hn hpath hlen name hleads
    cases hf : fragment? document name with
    | none => exact acc_of_fragment?_eq_none hf
    | some f =>
      have hnew : name ∉ path := fun hm => hno name (hleads name hm)
      refine ⟨_, fun inner hin => ih (List.nodup_cons.2 ⟨hnew, hn⟩)
        (List.forall_mem_cons.2 ⟨mem_fragmentNames hf, hpath⟩) ?_ (List.forall_mem_cons.2 ⟨.single hin, ?_⟩)⟩
      · rw [List.length_cons]
        omega
      · exact fun outer ho => .head hin (hleads outer ho)

/-- Selections can be read if the fragments that they spread can. -/
theorem exists_meets_of_fragments : ∀ (selections : List Selection),
    (∀ name ∈ spreadNames selections, ∀ f, fragment? document name = some f →
      ∃ names, Meets document f.selections names) → ∃ names, Meets document selections names
  | [], _ => ⟨[], .nil⟩
  | .field f inner :: rest, h => by
    obtain ⟨names, hnames⟩ := exists_meets_of_fragments inner fun name hm => h name (mem_spreadNames_cons.2 (.inl hm))
    obtain ⟨others, hothers⟩ := exists_meets_of_fragments rest fun name hm => h name (mem_spreadNames_cons.2 (.inr hm))
    exact ⟨_, .field hnames hothers⟩
  | .inline condition directives inner :: rest, h => by
    obtain ⟨names, hnames⟩ := exists_meets_of_fragments inner fun name hm => h name (mem_spreadNames_cons.2 (.inl hm))
    obtain ⟨others, hothers⟩ := exists_meets_of_fragments rest fun name hm => h name (mem_spreadNames_cons.2 (.inr hm))
    exact ⟨_, .inline hnames hothers⟩
  | .spread name directives :: rest, h => by
    obtain ⟨others, hothers⟩ := exists_meets_of_fragments rest fun name hm => h name (mem_spreadNames_cons.2 (.inr hm))
    cases hf : fragment? document name with
    | none => exact ⟨_, .unknown hf hothers⟩
    | some f =>
      obtain ⟨names, hnames⟩ := h name (mem_spreadNames_cons.2 (.inl (List.mem_singleton_self name))) f hf
      exact ⟨_, .spread hf hnames hothers⟩

/-- **Where no fragment spreads itself, selections can be read.** -/
theorem exists_meets (hno : HasNoCycle document) (selections : List Selection) :
    ∃ names, Meets document selections names := by
  have hfragment : ∀ name f, fragment? document name = some f → ∃ names, Meets document f.selections names := by
    intro name
    have hacc : Acc (SpreadIn document) name :=
      acc_of_hasNoCycle hno (n := (fragments document).length) List.nodup_nil (by simp) (by simp) (by simp)
    induction hacc with
    | intro name _ ih => exact fun f hf => exists_meets_of_fragments f.selections fun inner hm => ih inner ⟨f, hf, hm⟩
  exact exists_meets_of_fragments selections fun name _ => hfragment name

/-- **The spreads met when definitions are read in order**: those of the operations, one after the other. -/
def DefinitionsMeet (document : Document) (definitions : List Definition) (names : List String) : Prop :=
  ∃ parts, List.Forall₂ (fun o part => Meets document o.selections part) (operations definitions) parts ∧
    names = parts.flatten

/-- Definitions are read in one way. -/
theorem DefinitionsMeet.unique {definitions : List Definition} {names names' : List String}
    (h : DefinitionsMeet document definitions names) (h' : DefinitionsMeet document definitions names') :
    names = names' := by
  obtain ⟨parts, hparts, rfl⟩ := h
  obtain ⟨parts', hparts', rfl⟩ := h'
  have hunique : Relator.RightUnique fun (o : Operation) part => Meets document o.selections part :=
    fun _ _ _ hpart hpart' => hpart.unique hpart'
  rw [List.right_unique_forall₂' hunique hparts hparts']

theorem exists_definitionsMeet (hno : HasNoCycle document) (definitions : List Definition) :
    ∃ names, DefinitionsMeet document definitions names := by
  have hall : ∀ operations : List Operation,
      ∃ parts, List.Forall₂ (fun o part => Meets document o.selections part) operations parts := by
    intro operations
    induction operations with
    | nil => exact ⟨[], .nil⟩
    | cons o rest ih =>
      obtain ⟨part, hpart⟩ := exists_meets hno o.selections
      obtain ⟨parts, hparts⟩ := ih
      exact ⟨part :: parts, .cons hpart hparts⟩
  obtain ⟨parts, hparts⟩ := hall (operations definitions)
  exact ⟨parts.flatten, parts, hparts, rfl⟩

/-! ## The first name without a fragment -/

/-- The first of the names that no fragment has. -/
def firstUnknown (document : Document) (names : List String) : Option String :=
  names.find? fun name => (fragment? document name).isNone

/-- Does a result tell the first of the names met that no fragment has, unless it tells of a cycle? -/
def Tells {α : Type} (document : Document) (names : List String) : Except InliningError α → Prop
  | .ok _ => firstUnknown document names = none
  | .error (.unknownFragment name) => firstUnknown document names = some name
  | .error (.endless _) => True

theorem Tells.ok {α : Type} (a : α) : Tells document [] (.ok a) := rfl

/-- What is met first is told first. -/
theorem Tells.bind {α β : Type} {names others : List String} {x : Except InliningError α}
    {f : α → Except InliningError β} (h : Tells document names x) (hf : ∀ a, Tells document others (f a)) :
    Tells document (names ++ others) (x >>= f) := by
  cases x with
  | error cause =>
    cases cause with
    | unknownFragment name =>
      show (names ++ others).find? _ = some name
      rw [List.find?_append, show names.find? _ = some name from h, Option.some_or]
    | endless name => trivial
  | ok a =>
    have hnone : names.find? (fun name => (fragment? document name).isNone) = none := h
    have hsame : firstUnknown document (names ++ others) = firstUnknown document others := by
      rw [firstUnknown, List.find?_append, hnone, Option.none_or, firstUnknown]
    have hnext := hf a
    show Tells document (names ++ others) (f a)
    unfold Tells at hnext ⊢
    rwa [hsame]

/-- What is done to a result does not change what it tells. -/
theorem Tells.map {α β : Type} {names : List String} {x : Except InliningError α} (h : Tells document names x)
    (g : α → β) : Tells document names (x >>= fun a => pure (g a)) := by
  have hbind : Tells document (names ++ []) (x >>= fun a => pure (g a)) := h.bind fun a => .ok (g a)
  rwa [List.append_nil] at hbind

/-- A selection in front of others, once it is inlined. -/
theorem Tells.cons {n : Nat} {first : Selection} {rest : List Selection} {names others : List String}
    (h : Tells document names (inlineSelection document n first))
    (hrest : Tells document others (inlineSelections document n rest)) :
    Tells document (names ++ others) (inlineSelections document n (first :: rest)) := by
  rw [inlineSelections]
  exact h.bind fun first' => hrest.map (first' :: ·)

/-- **Inlining selections tells the first name met that no fragment has.** -/
theorem Meets.tells_inlineSelections {selections : List Selection} {names : List String}
    (h : Meets document selections names) (n : Nat) :
    Tells document names (inlineSelections document n selections) := by
  induction h generalizing n with
  | nil =>
    rw [inlineSelections]
    exact .ok _
  | field _ _ ih ih' =>
    refine .cons ?_ (ih' n)
    rw [inlineSelection]
    exact (ih n).map _
  | inline _ _ ih ih' =>
    refine .cons ?_ (ih' n)
    rw [inlineSelection]
    exact (ih n).map _
  | @unknown name directives rest others missing _ ih =>
    have hfirst : Tells document [name] (inlineSelection document n (.spread name directives)) := by
      rw [inlineSelection.eq_def]
      simp only [missing]
      simp [Tells, firstUnknown, missing]
    exact hfirst.cons (ih n)
  | @spread name directives f rest names others found _ _ ih ih' =>
    have hskip : firstUnknown document (name :: names) = firstUnknown document names := by
      simp [firstUnknown, found]
    have hfirst : Tells document (name :: names) (inlineSelection document n (.spread name directives)) := by
      rw [inlineSelection.eq_def]
      cases n with
      | zero =>
        simp only [found]
        trivial
      | succ n =>
        have hbelow := (ih n).map fun inlined => Selection.inline (some f.condition) directives inlined
        simp only [found]
        unfold Tells at hbelow ⊢
        rwa [hskip]
    exact hfirst.cons (ih' n)

/-- **Inlining a document tells the first name met that no fragment has.** -/
theorem tells_inline {names : List String} (h : DefinitionsMeet document document names) :
    Tells document names (inline document) := by
  have hall : ∀ (definitions : List Definition) (names : List String), DefinitionsMeet document definitions names →
      Tells document names (definitions.filterMapM (inlineDefinition document)) := by
    intro definitions
    induction definitions with
    | nil =>
      rintro _ ⟨parts, hparts, rfl⟩
      cases hparts
      exact .ok _
    | cons d rest ih =>
      rintro _ ⟨parts, hparts, rfl⟩
      rw [List.filterMapM_cons]
      cases d with
      | operation o =>
        cases hparts with
        | @cons _ part _ parts ho hrest =>
          refine Tells.bind ((ho.tells_inlineSelections _).map fun selections =>
            some (Definition.operation { o with selections })) fun found => ?_
          have hothers := ih _ ⟨parts, hrest, rfl⟩
          cases found with
          | none => exact hothers
          | some d => exact hothers.map (d :: ·)
      | fragment f => exact ih _ ⟨parts, hparts, rfl⟩
      | schema s | schemaExtension s | type t | typeExtension t | directive d =>
        exact (ih _ ⟨parts, hparts, rfl⟩).map (_ :: ·)
  exact hall document names h

/-! ## Inlined documents -/

/-- Does a definition come of another one by inlining: is it an operation with its selections inlined, or the same? -/
inductive Definition.ComesOf (document : Document) : Definition → Definition → Prop where
  | operation {n : Nat} {o : Operation} {selections : List Selection}
      (inlined : InlinesWithin document n o.selections selections) :
      Definition.ComesOf document (.operation o) (.operation { o with selections })
  | schema (s : SchemaDefinition) : Definition.ComesOf document (.schema s) (.schema s)
  | schemaExtension (s : SchemaDefinition) : Definition.ComesOf document (.schemaExtension s) (.schemaExtension s)
  | type (t : TypeDefinition) : Definition.ComesOf document (.type t) (.type t)
  | typeExtension (t : TypeDefinition) : Definition.ComesOf document (.typeExtension t) (.typeExtension t)
  | directive (d : DirectiveDefinition) : Definition.ComesOf document (.directive d) (.directive d)

/-- Is a definition one of a fragment? -/
def Definition.isOfFragment : Definition → Bool
  | .fragment _ => true
  | _ => false

/-- **Is a document what is left of another one when its spreads are read in place**: without spreads at any depth and
without fragments, and else the same, in order? -/
structure IsReadOut (document inlined : Document) : Prop where
  spreads : ∀ o ∈ operations inlined, spreadNames o.selections = []
  fragments : fragments inlined = []
  kept : List.Forall₂ (Definition.ComesOf document) (document.filter (!·.isOfFragment)) inlined

/-- Selections that come of inlining spread nothing. -/
theorem InlinesWithin.spreadNames_eq_nil {n : Nat} {selections inlined : List Selection}
    (h : InlinesWithin document n selections inlined) : spreadNames inlined = [] := by
  have hcons : ∀ {first : Selection} {rest : List Selection}, spreadsAt first = [] → spreadNames rest = [] →
      spreadNames (first :: rest) = [] := by
    intro first rest hfirst hrest
    refine List.eq_nil_iff_forall_not_mem.2 fun name hm => ?_
    rw [mem_spreadNames_cons, hfirst, hrest] at hm
    simp at hm
  induction h with
  | nil => rfl
  | field _ _ ih ih' | inline _ _ ih ih' | spread _ _ _ ih ih' => exact hcons ih ih'

/-- Selections that spread nothing stay as they are. -/
theorem inlinesWithin_self (n : Nat) : ∀ {selections : List Selection}, spreadNames selections = [] →
    InlinesWithin document n selections selections
  | [], _ => .nil
  | first :: rest, h => by
    have hno : ∀ name, name ∉ spreadsAt first ∧ name ∉ spreadNames rest := by
      intro name
      have hm : name ∈ spreadNames (first :: rest) ↔ name ∈ spreadsAt first ∨ name ∈ spreadNames rest :=
        mem_spreadNames_cons
      rw [h] at hm
      simpa using hm
    have hrest : spreadNames rest = [] := List.eq_nil_iff_forall_not_mem.2 fun name => (hno name).2
    have hfirst : spreadsAt first = [] := List.eq_nil_iff_forall_not_mem.2 fun name => (hno name).1
    cases first with
    | field f inner => exact .field (inlinesWithin_self n hfirst) (inlinesWithin_self n hrest)
    | inline condition directives inner => exact .inline (inlinesWithin_self n hfirst) (inlinesWithin_self n hrest)
    | spread name directives => cases hfirst

/-- **Inlining leaves a document with its spreads read in place.** -/
theorem isReadOut_inline {inlined : Document} (h : inline document = .ok inlined) : IsReadOut document inlined := by
  have hkept : ∀ (definitions inlined : List Definition),
      definitions.filterMapM (inlineDefinition document) = .ok inlined →
        List.Forall₂ (Definition.ComesOf document) (definitions.filter (!·.isOfFragment)) inlined := by
    intro definitions
    induction definitions with
    | nil =>
      intro inlined h
      cases h
      exact .nil
    | cons d rest ih =>
      intro inlined h
      rw [List.filterMapM_cons, bind_eq_ok_iff] at h
      obtain ⟨found, hfound, h⟩ := h
      cases d with
      | fragment f =>
        cases hfound
        exact ih inlined h
      | operation o =>
        obtain ⟨selections, hs, hfound⟩ := bind_eq_ok_iff.1 hfound
        cases hfound
        obtain ⟨others, hothers, h⟩ := bind_eq_ok_iff.1 h
        cases h
        exact .cons (.operation (inlinesWithin_of_eq_ok _ _ hs)) (ih others hothers)
      | schema s | schemaExtension s | type t | typeExtension t | directive d =>
        cases hfound
        obtain ⟨others, hothers, h⟩ := bind_eq_ok_iff.1 h
        cases h
        exact .cons (by constructor) (ih others hothers)
  have hforall := hkept document inlined h
  refine ⟨fun o ho => ?_, ?_, hforall⟩
  · obtain ⟨d, -, hd⟩ := exists_of_mem_forall₂ hforall (mem_of_mem_operations ho)
    cases hd with
    | operation hinlined => exact hinlined.spreadNames_eq_nil
  · refine List.eq_nil_iff_forall_not_mem.2 fun f hf => ?_
    obtain ⟨d, -, hd⟩ := exists_of_mem_forall₂ hforall (mem_of_mem_fragments hf)
    cases hd

/-- A document with its spreads read in place is inlined to itself. -/
theorem IsReadOut.inline_eq {inlined : Document} (h : IsReadOut document inlined) : inline inlined = .ok inlined := by
  have hall : ∀ definitions : List Definition, (∀ d ∈ definitions, inlineDefinition inlined d = .ok (some d)) →
      definitions.filterMapM (inlineDefinition inlined) = .ok definitions := by
    intro definitions
    induction definitions with
    | nil => exact fun _ => rfl
    | cons d rest ih =>
      intro hd
      obtain ⟨hfirst, hrest⟩ := List.forall_mem_cons.1 hd
      rw [List.filterMapM_cons, hfirst, ok_bind]
      exact bind_eq_ok_iff.2 ⟨rest, ih hrest, rfl⟩
  refine hall inlined fun d hd => ?_
  cases d with
  | operation o =>
    have hself : InlinesWithin inlined (GraphQL.fragments inlined).length o.selections o.selections :=
      inlinesWithin_self _ (h.spreads o (List.mem_filterMap.2 ⟨_, hd, rfl⟩))
    exact bind_eq_ok_iff.2 ⟨o.selections, hself.eq_ok, rfl⟩
  | fragment f =>
    have hf : f ∈ GraphQL.fragments inlined := List.mem_filterMap.2 ⟨_, hd, rfl⟩
    rw [h.fragments] at hf
    cases hf
  | schema s | schemaExtension s | type t | typeExtension t | directive d => rfl

end

end FixtureCheck.GraphQL

namespace FixtureCheck.Fixture

open GraphQL

/-! ## Checks of inlined documents -/

/-- **A document without cycles is inlined by reading its spreads in place.** That fails if and only if an operation
leads to a name that no fragment has, at the first such name that is met. What is left otherwise is inlined to itself,
and fixtures are compared with it as with the document. -/
theorem inline_in_place {document : Document} (hno : HasNoCycle document) :
    (∃ names, DefinitionsMeet document document names ∧
      (∀ names', DefinitionsMeet document document names' → names' = names) ∧
      ∀ name, GraphQL.inline document = .error (.unknownFragment name) ↔ firstUnknown document names = some name) ∧
    ((∃ name, GraphQL.inline document = .error (.unknownFragment name)) ↔ SpreadsUnknown document) ∧
    (¬ SpreadsUnknown document → ∃ inlined, GraphQL.inline document = .ok inlined) ∧
    ∀ inlined, GraphQL.inline document = .ok inlined → IsReadOut document inlined ∧
      GraphQL.inline inlined = .ok inlined ∧
      ∀ schema fixture name, check schema inlined fixture name = check schema document fixture name := by
  refine ⟨?_, ⟨?_, fun hunknown => ?_⟩, (exists_inline_iff hno).2, fun inlined hi => ?_⟩
  · obtain ⟨names, hnames⟩ := exists_definitionsMeet hno document
    refine ⟨names, hnames, fun names' hnames' => hnames'.unique hnames, fun name => ?_⟩
    have htells := tells_inline hnames
    cases hi : GraphQL.inline document with
    | error cause =>
      obtain ⟨-, first, rfl⟩ := unknown_of_inline hno hi
      rw [hi] at htells
      have hfirst : firstUnknown document names = some first := htells
      rw [hfirst]
      simp
    | ok inlined =>
      rw [hi] at htells
      have hnone : firstUnknown document names = none := htells
      rw [hnone]
      simp
  · rintro ⟨name, hi⟩
    exact (unknown_of_inline hno hi).1
  · cases hi : GraphQL.inline document with
    | error cause =>
      obtain ⟨-, name, rfl⟩ := unknown_of_inline hno hi
      exact ⟨name, rfl⟩
    | ok inlined => exact absurd hunknown ((exists_inline_iff hno).1 ⟨inlined, hi⟩)
  · have hread := isReadOut_inline hi
    have hself := hread.inline_eq
    refine ⟨hread, hself, fun schema fixture name => ?_⟩
    rw [check, check, hi, hself]

/-- A query that spreads two fragments that are not there, the first one in a fragment. A fragment that is spread
nowhere spreads a third. -/
def twiceLost : Document := [
  .fragment ⟨none, "Apart", "Pet", [], [.spread "Nowhere" []]⟩,
  .operation ⟨none, .query, none, [], [],
    [.field ⟨none, "pets", [], []⟩ [.spread "Described" [], .spread "Missing" []]]⟩,
  .fragment ⟨none, "Described", "Pet", [], [.field ⟨none, "__typename", [], []⟩ [], .spread "Lost" []]⟩]

/-- The fragment that is missed is the one met first. -/
theorem twiceLost_misses_lost : HasNoCycle twiceLost ∧
    GraphQL.inline twiceLost = .error (.unknownFragment "Lost") := by
  have hno : HasNoCycle twiceLost :=
    hasNoCycle_of_rank (fun name => if name = "Described" ∨ name = "Apart" then 1 else 0) (by decide)
  obtain ⟨⟨names, -, hunique, htells⟩, -⟩ := inline_in_place hno
  have hdescribed : Meets twiceLost [.field ⟨none, "__typename", [], []⟩ [], .spread "Lost" []] ["Lost"] :=
    .field .nil (.unknown rfl .nil)
  have hpets : Meets twiceLost [.spread "Described" [], .spread "Missing" []]
      ("Described" :: (["Lost"] ++ ["Missing"])) := .spread rfl hdescribed (.unknown rfl .nil)
  have hmet : DefinitionsMeet twiceLost twiceLost ["Described", "Lost", "Missing"] :=
    ⟨[["Described", "Lost", "Missing"]], .cons (.field hpets .nil) .nil, rfl⟩
  refine ⟨hno, (htells "Lost").2 ?_⟩
  rw [← hunique _ hmet]
  rfl

end FixtureCheck.Fixture
