import FixtureCheck.Proofs.Query.Typed
import Mathlib.Data.List.Nodup
import Mathlib.Data.List.Perm.Subperm
import Mathlib.Logic.Relation
import Mathlib.Order.WellFounded

/-!
# Fragments that do not reach themselves

`SpreadIn document inner outer` holds if the fragment `outer` spreads the fragment `inner`. The search for cycles enters
each fragment once, so a search without messages shows that no infinite way leads on from a fragment: every fragment
that has been entered and left is accessible (`IsSettled`, `cycles_settles`). In an accepted document spreading is
well-founded (`Accepts.wellFounded_spreadIn`). Where no fragment spreads itself, inlining, with as much fuel as there
are fragments, comes to an end: it fails only at a name that an operation leads to and that no fragment has
(`exists_inline_iff`), and in an accepted document nowhere (`Accepts.exists_inline`).
-/

namespace FixtureCheck.GraphQL

/-- Does the fragment `outer` spread the fragment `inner`, at any depth? -/
def SpreadIn (document : Document) (inner outer : String) : Prop :=
  ∃ f, fragment? document outer = some f ∧ inner ∈ spreadNames f.selections

/-- The names of the fragments of a document. -/
def fragmentNames (document : Document) : List String := (fragments document).map (·.name)

section

variable {document : Document}

theorem mem_fragmentNames {name : String} {f : Fragment} (h : fragment? document name = some f) :
    name ∈ fragmentNames document := by
  obtain ⟨hm, rfl⟩ := mem_of_fragment? h
  exact List.mem_map.2 ⟨f, List.mem_filterMap.2 ⟨_, hm, rfl⟩, rfl⟩

/-- A name without a fragment leads nowhere. -/
theorem acc_of_fragment?_eq_none {name : String} (h : fragment? document name = none) :
    Acc (SpreadIn document) name := by
  refine Acc.intro _ fun inner ⟨f, hf, _⟩ => ?_
  rw [h] at hf
  cases hf

/-- A path through distinct fragments to a further one is shorter than the list of fragments. -/
theorem length_lt_of_path {path : List String} (hn : path.Nodup) (hf : ∀ x ∈ path, x ∈ fragmentNames document)
    {name : String} (hnew : name ∉ path) (hname : name ∈ fragmentNames document) :
    path.length < (fragments document).length := by
  have hsub : name :: path ⊆ fragmentNames document := List.cons_subset.2 ⟨hname, hf⟩
  have hle := ((List.nodup_cons.2 ⟨hnew, hn⟩).subperm hsub).length_le
  rw [fragmentNames, List.length_map, List.length_cons] at hle
  omega

/-! ## The search for cycles -/

/-- Has every fragment that was entered and left no infinite way on? -/
def IsSettled (document : Document) (path entered : List String) : Prop :=
  ∀ x ∈ entered, x ∉ path → Acc (SpreadIn document) x

/-- What a search does at a spread; `path` leads to the spread, with the fragment that it is in. -/
def searchStep (document : Document) (n : Nat) (path : List String) (state : List String × List String)
    (name : String) : List String × List String :=
  if path.contains name then (state.1 ++ [cycleMessage name (path.takeWhile (· != name)).reverse], state.2)
  else
    match fragment? document name with
    | none => state
    | some next => (state.1 ++ (cycles document n path next state.2).1, (cycles document n path next state.2).2)

theorem cycles_succ (n : Nat) (path : List String) (f : Fragment) (entered : List String) :
    cycles document (n + 1) path f entered =
      if entered.contains f.name then ([], entered)
      else (spreadNames f.selections).foldl (searchStep document n (f.name :: path)) ([], f.name :: entered) := rfl

/-- What a search from a fragment comes to, if it has no message. -/
def Settles (document : Document) (n : Nat) (path : List String) : Prop :=
  ∀ (f : Fragment) (entered entered' : List String), fragment? document f.name = some f → f.name ∉ path →
    path ⊆ entered → IsSettled document path entered → cycles document n path f entered = ([], entered') →
      entered ⊆ entered' ∧ Acc (SpreadIn document) f.name ∧ IsSettled document path entered'

/-- A search without messages in the end has none before. -/
theorem messages_eq_nil {n : Nat} {path entered' : List String} : ∀ {names : List String}
    {state : List String × List String}, names.foldl (searchStep document n path) state = ([], entered') → state.1 = []
  | [], state, h => by rw [show state = ([], entered') from h]
  | name :: rest, state, h => by
    rw [List.foldl_cons] at h
    have hnil := messages_eq_nil h
    unfold searchStep at hnil
    split at hnil
    · simp at hnil
    · split at hnil
      · exact hnil
      · exact (List.append_eq_nil_iff.1 hnil).1

/-- A search through spreads without messages settles all of them, if the searches from fragments do. -/
theorem foldl_searchStep_settles {n : Nat} {path : List String} (hs : Settles document n path) :
    ∀ {names : List String} {messages entered entered' : List String}, path ⊆ entered →
      IsSettled document path entered →
      names.foldl (searchStep document n path) (messages, entered) = ([], entered') →
        entered ⊆ entered' ∧ (∀ name ∈ names, Acc (SpreadIn document) name) ∧
          IsSettled document path entered'
  | [], messages, entered, entered', _, hi, h => by
    cases h
    exact ⟨List.Subset.refl _, by simp, hi⟩
  | name :: rest, messages, entered, entered', hp, hi, h => by
    rw [List.foldl_cons, searchStep] at h
    by_cases hc : path.contains name = true
    · rw [if_pos hc] at h
      have hnil := messages_eq_nil h
      simp at hnil
    · rw [if_neg hc] at h
      have hnot : name ∉ path := by simpa using hc
      cases hf : fragment? document name with
      | none =>
        rw [hf] at h
        obtain ⟨hsub, hacc, hi'⟩ := foldl_searchStep_settles hs hp hi h
        exact ⟨hsub, List.forall_mem_cons.2 ⟨acc_of_fragment?_eq_none hf, hacc⟩, hi'⟩
      | some next =>
        rw [hf] at h
        simp only at h
        obtain ⟨-, rfl⟩ := mem_of_fragment? hf
        cases hsearch : cycles document n path next entered with
        | mk more between =>
          rw [hsearch] at h
          simp only at h
          obtain ⟨rfl, rfl⟩ := List.append_eq_nil_iff.1 (messages_eq_nil h)
          obtain ⟨hsub, hacc, hi'⟩ := hs next entered between hf hnot hp hi hsearch
          obtain ⟨hsub', haccs, hi''⟩ := foldl_searchStep_settles hs (List.Subset.trans hp hsub) hi' h
          exact ⟨List.Subset.trans hsub hsub', List.forall_mem_cons.2 ⟨hacc, haccs⟩, hi''⟩

/-- **A search without messages settles the fragment that it starts from**, given as much fuel as fragments are left. -/
theorem cycles_settles : ∀ {n : Nat} {path : List String}, path.Nodup → (∀ x ∈ path, x ∈ fragmentNames document) →
    (fragments document).length < n + path.length → Settles document n path
  | 0, path, hn, hpath, hlen => by
    intro f entered entered' hf hnot
    have := length_lt_of_path hn hpath hnot (mem_fragmentNames hf)
    omega
  | n + 1, path, hn, hpath, hlen => by
    intro f entered entered' hf hnot hp hi h
    rw [cycles_succ] at h
    by_cases hc : entered.contains f.name = true
    · rw [if_pos hc] at h
      cases h
      exact ⟨List.Subset.refl _, hi f.name (by simpa using hc) hnot, hi⟩
    · rw [if_neg hc] at h
      have hs : Settles document n (f.name :: path) := by
        refine cycles_settles (List.nodup_cons.2 ⟨hnot, hn⟩) ?_ ?_
        · exact List.forall_mem_cons.2 ⟨mem_fragmentNames hf, hpath⟩
        · rw [List.length_cons]
          omega
      have hi' : IsSettled document (f.name :: path) (f.name :: entered) := by
        intro x hx hout
        rw [List.mem_cons, not_or] at hout
        exact hi x ((List.mem_cons.1 hx).resolve_left hout.1) hout.2
      obtain ⟨hsub, haccs, hi''⟩ := foldl_searchStep_settles hs (List.cons_subset_cons _ hp) hi' h
      have hacc : Acc (SpreadIn document) f.name := by
        refine Acc.intro _ fun inner ⟨f', hf', hm⟩ => ?_
        rw [hf] at hf'
        cases hf'
        exact haccs inner hm
      refine ⟨List.Subset.trans (List.subset_cons_self _ _) hsub, hacc, fun x hx hout => ?_⟩
      by_cases hx' : x = f.name
      · exact hx' ▸ hacc
      · exact hi'' x hx (by simp [hx', hout])

/-- Searches from fragments in a row, without reports, settle all of them. -/
theorem allCycles_settles : ∀ {starts : List (Fragment × Nat)} {entered : List String},
    (∀ start ∈ starts, fragment? document start.1.name = some start.1) → IsSettled document [] entered →
      allCycles document entered starts = [] → ∀ start ∈ starts, Acc (SpreadIn document) start.1.name
  | [], _, _, _, _ => by simp
  | (f, time) :: rest, entered, hf, hi, h => by
    have hs : Settles document ((fragments document).length + 1) [] :=
      cycles_settles .nil (by simp) (by simp)
    rw [allCycles] at h
    cases hc : cycles document ((fragments document).length + 1) [] f entered with
    | mk messages entered' =>
      rw [hc] at h
      obtain ⟨hm, hrest⟩ := List.append_eq_nil_iff.1 h
      rw [List.map_eq_nil_iff] at hm
      subst hm
      obtain ⟨-, hacc, hi'⟩ := hs f entered entered' (hf _ List.mem_cons_self) (by simp) (by simp) hi hc
      refine List.forall_mem_cons.2 ⟨hacc, ?_⟩
      exact allCycles_settles (fun start hm => hf start (List.mem_cons_of_mem _ hm)) hi' hrest

/-! ## Accepted documents -/

namespace Accepts

variable {schema : Schema}

/-- The fragments of an accepted document have distinct names. -/
theorem nodup_fragmentNames (h : Accepts schema document) : (fragmentNames document).Nodup := by
  rw [fragmentNames, fragments, List.map_filterMap]
  refine nodup_of_repeats_definitions (fun visit d hv => ?_) (h.silent uniqueFragmentNames (by simp [queryRules]))
  rw [hv]
  cases d <;> rfl

/-- A fragment of an accepted document is the one that spreads of its name refer to. -/
theorem fragment?_name (h : Accepts schema document) {f : Fragment} (hf : f ∈ fragments document) :
    fragment? document f.name = some f := by
  have hsome : (fragment? document f.name).isSome :=
    List.find?_isSome.2 ⟨f, List.mem_reverse.2 hf, by simp⟩
  obtain ⟨g, hg⟩ := Option.isSome_iff_exists.1 hsome
  obtain ⟨hm, hname⟩ := mem_of_fragment? hg
  have hmem : g ∈ fragments document := List.mem_filterMap.2 ⟨_, hm, rfl⟩
  have hsame : g = f := List.inj_on_of_nodup_map h.nodup_fragmentNames hmem hf hname
  rw [hg, hsame]

/-- **In an accepted document no fragment reaches itself**: spreading is well-founded. -/
theorem wellFounded_spreadIn (h : Accepts schema document) : WellFounded (SpreadIn document) := by
  refine ⟨fun name => ?_⟩
  cases hf : fragment? document name with
  | none => exact acc_of_fragment?_eq_none hf
  | some f =>
    have hsilent := h.silent noFragmentCycles (by simp [queryRules])
    obtain ⟨hm, rfl⟩ := mem_of_fragment? hf
    have hvisit : (⟨true, .definition (.fragment f), .document document, 1, false,
        (Definition.fragment f).scope schema⟩ : Visit) ∈ visits schema document :=
      mem_visits_of_definition hm (mem_around.2 (.inl rfl))
    obtain ⟨time, ht⟩ := exists_mem_zipIdx hvisit
    refine allCycles_settles (fun start hs => ?_) (by simp [IsSettled]) hsilent (f, time)
      (List.mem_filterMap.2 ⟨_, ht, rfl⟩)
    obtain ⟨⟨visit, time'⟩, hv, hstart⟩ := List.mem_filterMap.1 hs
    simp only at hstart
    split at hstart
    · rename_i g _ hnode
      cases hstart
      have hg := h.mem_of_definition_visited (List.mem_of_getElem? (List.mem_zipIdx_iff_getElem?.1 hv)) hnode
      exact h.fragment?_name (List.mem_filterMap.2 ⟨_, hg, rfl⟩)
    · cases hstart

end Accepts

/-! ## Inlining comes to an end -/

/-- The spreads in a selection, at any depth. -/
def spreadsAt : Selection → List String
  | .spread name _ => [name]
  | selection => spreadsBelow selection

theorem mem_spreadNames_cons {name : String} {selection : Selection} {rest : List Selection} :
    name ∈ spreadNames (selection :: rest) ↔ name ∈ spreadsAt selection ∨ name ∈ spreadNames rest := by
  cases selection with
  | spread name' directives =>
    show name ∈ (name' :: directSpreads rest) ++ (innerSpreads rest ++ []) ↔
      name ∈ [name'] ∨ name ∈ directSpreads rest ++ innerSpreads rest
    simp only [List.append_nil, List.cons_append, List.mem_cons, List.not_mem_nil, or_false]
  | field f selections =>
    show name ∈ directSpreads rest ++ (innerSpreads rest ++ (directSpreads selections ++ innerSpreads selections)) ↔
      name ∈ directSpreads selections ++ innerSpreads selections ∨ name ∈ directSpreads rest ++ innerSpreads rest
    simp only [List.mem_append]
    tauto
  | inline condition directives selections =>
    show name ∈ directSpreads rest ++ (innerSpreads rest ++ (directSpreads selections ++ innerSpreads selections)) ↔
      name ∈ directSpreads selections ++ innerSpreads selections ∨ name ∈ directSpreads rest ++ innerSpreads rest
    simp only [List.mem_append]
    tauto

section

variable (schema : Schema)

mutual

/-- The walk through selections meets the spreads in them. -/
theorem exists_visit_of_spread (position : Position) {name : String} : ∀ {selections : List Selection},
    name ∈ spreadNames selections → ∃ visit ∈ selectionsVisits schema position selections,
      visit.entering = true ∧ ∃ directives, visit.node = .spread name directives
  | [], hm => by simp [spreadNames, directSpreads, innerSpreads] at hm
  | selection :: rest, hm => by
    rw [selectionsVisits]
    rcases mem_spreadNames_cons.1 hm with hm | hm
    · obtain ⟨visit, hv, h⟩ := exists_visit_of_spreadAt position hm
      exact ⟨visit, List.mem_append_left _ hv, h⟩
    · obtain ⟨visit, hv, h⟩ := exists_visit_of_spread position hm
      exact ⟨visit, List.mem_append_right _ hv, h⟩

theorem exists_visit_of_spreadAt (position : Position) {name : String} : ∀ {selection : Selection},
    name ∈ spreadsAt selection → ∃ visit ∈ selectionVisits schema position selection,
      visit.entering = true ∧ ∃ directives, visit.node = .spread name directives
  | .field f selections, hm => by
    have hne : selections ≠ [] := by
      rintro rfl
      simp [spreadsAt, spreadsBelow, directSpreads, innerSpreads] at hm
    obtain ⟨visit, hv, h⟩ := exists_visit_of_spread _ (show name ∈ spreadNames selections from hm)
    exact ⟨visit, mem_selectionVisits_field hne hv, h⟩
  | .spread name' directives, hm => by
    rw [spreadsAt, List.mem_singleton] at hm
    subst hm
    rw [selectionVisits]
    exact ⟨_, mem_around.2 (.inl rfl), rfl, directives, rfl⟩
  | .inline condition directives selections, hm => by
    obtain ⟨visit, hv, h⟩ := exists_visit_of_spread _ (show name ∈ spreadNames selections from hm)
    exact ⟨visit, mem_selectionVisits_inline hv, h⟩

end

end

/-- Is there a fragment of a name? -/
def IsFragment (document : Document) (name : String) : Prop := (fragment? document name).isSome

instance (document : Document) : DecidablePred (IsFragment document) :=
  fun name => inferInstanceAs (Decidable ((fragment? document name).isSome = true))

/-- Does no fragment spread itself, directly or through others? -/
def HasNoCycle (document : Document) : Prop := ∀ name, ¬ Relation.TransGen (SpreadIn document) name name

/-- Are names those of fragments, and those that the fragments spread, directly or through others? -/
def AreKnown (document : Document) (names : List String) : Prop :=
  ∀ name ∈ names, ∀ inner, Relation.ReflTransGen (SpreadIn document) inner name → IsFragment document inner

/-- Fragments that only spread fragments of lower rank do not spread themselves. -/
theorem hasNoCycle_of_rank (rank : String → Nat)
    (h : ∀ f ∈ fragments document, ∀ inner ∈ spreadNames f.selections, rank inner < rank f.name) :
    HasNoCycle document := by
  have hstep : ∀ inner outer, SpreadIn document inner outer → rank inner < rank outer := by
    rintro inner outer ⟨f, hf, hin⟩
    obtain ⟨hm, rfl⟩ := mem_of_fragment? hf
    exact h f (List.mem_filterMap.2 ⟨_, hm, rfl⟩) inner hin
  have hwf : WellFounded (SpreadIn document) := Subrelation.wf (hstep _ _) (InvImage.wf rank Nat.lt_wfRel.wf)
  exact fun name => (WellFounded.irrefl hwf.transGen).irrefl name

/-- Where all fragments spread known fragments only, names lead to known fragments if they are known. -/
theorem areKnown_of_fragments
    (hall : ∀ f ∈ fragments document, ∀ inner ∈ spreadNames f.selections, IsFragment document inner)
    {names : List String} (h : ∀ name ∈ names, IsFragment document name) : AreKnown document names := by
  intro name hm inner hr
  rcases hr.cases_head with rfl | ⟨outer, ⟨f, hf, hin⟩, -⟩
  · exact h inner hm
  · exact hall f (List.mem_filterMap.2 ⟨_, (mem_of_fragment? hf).1, rfl⟩) inner hin

/-- Do names lead to a further one: is it one of them, or spread by their fragments, directly or through others? -/
def SpreadsTo (document : Document) (names : List String) (inner : String) : Prop :=
  ∃ name ∈ names, Relation.ReflTransGen (SpreadIn document) inner name

theorem areKnown_iff {names : List String} :
    AreKnown document names ↔ ∀ inner, SpreadsTo document names inner → IsFragment document inner :=
  ⟨fun h inner ⟨name, hm, hr⟩ => h name hm inner hr, fun h name hm inner hr => h inner ⟨name, hm, hr⟩⟩

theorem SpreadsTo.mono {names names' : List String} {inner : String} (h : SpreadsTo document names inner)
    (hs : ∀ name ∈ names, name ∈ names') : SpreadsTo document names' inner := by
  obtain ⟨name, hm, hr⟩ := h
  exact ⟨name, hs name hm, hr⟩

/-- What a fragment leads to, its name leads to. -/
theorem SpreadsTo.of_fragment {name inner : String} {f : Fragment} (hf : fragment? document name = some f)
    (h : SpreadsTo document (spreadNames f.selections) inner) : SpreadsTo document [name] inner := by
  obtain ⟨name', hm, hr⟩ := h
  exact ⟨name, List.mem_singleton_self _, hr.tail ⟨f, hf, hm⟩⟩

/-- A name leads to itself, or on from its fragment. -/
theorem spreadsTo_singleton {name inner : String} : SpreadsTo document [name] inner ↔
    inner = name ∨ ∃ f, fragment? document name = some f ∧ SpreadsTo document (spreadNames f.selections) inner := by
  constructor
  · rintro ⟨name', hm, hr⟩
    rw [List.mem_singleton] at hm
    subst hm
    rcases hr.cases_tail with hsame | ⟨between, hr, f, hf, hm⟩
    · exact .inl hsame.symm
    · exact .inr ⟨f, hf, between, hm, hr⟩
  · rintro (rfl | ⟨f, hf, h⟩)
    · exact ⟨inner, List.mem_singleton_self _, .refl⟩
    · exact h.of_fragment hf

mutual

/-- **Inlining fails only at a name that is led to and is not that of a fragment**, where no fragment spreads itself,
given as much fuel as fragments are left. The names lead to each fragment on the path. -/
theorem unknown_of_inlineSelections (hno : HasNoCycle document) {n : Nat} {path : List String} (hn : path.Nodup)
    (hpath : ∀ x ∈ path, x ∈ fragmentNames document) (hlen : (fragments document).length ≤ n + path.length)
    {selections : List Selection} {cause : InliningError}
    (hleads : ∀ name ∈ spreadNames selections, ∀ outer ∈ path, Relation.TransGen (SpreadIn document) name outer)
    (h : inlineSelections document n selections = .error cause) :
    ∃ name, cause = .unknownFragment name ∧ SpreadsTo document (spreadNames selections) name ∧
      ¬ IsFragment document name :=
  match selections with
  | [] => by
    rw [inlineSelections] at h
    cases h
  | selection :: rest => by
    rw [inlineSelections] at h
    rcases bind_eq_error_iff.1 h with h | ⟨first, -, h⟩
    · obtain ⟨name, hc, hl, hf⟩ := unknown_of_inlineSelection hno hn hpath hlen
        (fun name hm => hleads name (mem_spreadNames_cons.2 (.inl hm))) h
      exact ⟨name, hc, hl.mono fun _ hm => mem_spreadNames_cons.2 (.inl hm), hf⟩
    · rcases bind_eq_error_iff.1 h with h | ⟨others, -, h⟩
      · obtain ⟨name, hc, hl, hf⟩ := unknown_of_inlineSelections hno hn hpath hlen
          (fun name hm => hleads name (mem_spreadNames_cons.2 (.inr hm))) h
        exact ⟨name, hc, hl.mono fun _ hm => mem_spreadNames_cons.2 (.inr hm), hf⟩
      · cases h
termination_by (n, sizeOf selections)

theorem unknown_of_inlineSelection (hno : HasNoCycle document) {n : Nat} {path : List String} (hn : path.Nodup)
    (hpath : ∀ x ∈ path, x ∈ fragmentNames document) (hlen : (fragments document).length ≤ n + path.length)
    {selection : Selection} {cause : InliningError}
    (hleads : ∀ name ∈ spreadsAt selection, ∀ outer ∈ path, Relation.TransGen (SpreadIn document) name outer)
    (h : inlineSelection document n selection = .error cause) :
    ∃ name, cause = .unknownFragment name ∧ SpreadsTo document (spreadsAt selection) name ∧
      ¬ IsFragment document name :=
  match selection with
  | .field f selections => by
    rw [inlineSelection] at h
    rcases bind_eq_error_iff.1 h with h | ⟨inner, -, h⟩
    · exact unknown_of_inlineSelections hno hn hpath hlen hleads h
    · cases h
  | .inline condition directives selections => by
    rw [inlineSelection] at h
    rcases bind_eq_error_iff.1 h with h | ⟨inner, -, h⟩
    · exact unknown_of_inlineSelections hno hn hpath hlen hleads h
    · cases h
  | .spread name directives => by
    rw [inlineSelection.eq_def] at h
    cases hf : fragment? document name with
    | none =>
      simp only [hf] at h
      cases h
      exact ⟨name, rfl, spreadsTo_singleton.2 (.inl rfl), by simp [IsFragment, hf]⟩
    | some f =>
      -- the spread leaves the path, for a fragment on the path would lead to itself
      have hnew : name ∉ path := fun hm => hno name (hleads name (List.mem_singleton_self _) name hm)
      have hname := mem_fragmentNames hf
      have hlt := length_lt_of_path hn hpath hnew hname
      cases n with
      | zero => omega
      | succ n =>
        simp only [hf] at h
        rcases bind_eq_error_iff.1 h with h | ⟨inner, -, h⟩
        · have hinner : ∀ inner ∈ spreadNames f.selections, ∀ outer ∈ name :: path,
              Relation.TransGen (SpreadIn document) inner outer := by
            refine fun inner hm => List.forall_mem_cons.2 ⟨.single ⟨f, hf, hm⟩, fun outer ho => ?_⟩
            exact .head ⟨f, hf, hm⟩ (hleads name (List.mem_singleton_self _) outer ho)
          have hlen' : (fragments document).length ≤ n + (name :: path).length := by
            rw [List.length_cons]
            omega
          obtain ⟨unknown, hc, hl, hno'⟩ := unknown_of_inlineSelections hno (List.nodup_cons.2 ⟨hnew, hn⟩)
            (List.forall_mem_cons.2 ⟨hname, hpath⟩) hlen' hinner h
          exact ⟨unknown, hc, hl.of_fragment hf, hno'⟩
        · cases h
termination_by (n, sizeOf selection)

end

mutual

/-- **What can be inlined leads to known fragments only.** -/
theorem areKnown_of_inlineSelections {n : Nat} {selections inlined : List Selection}
    (h : inlineSelections document n selections = .ok inlined) : AreKnown document (spreadNames selections) :=
  match selections with
  | [] => fun name hm => by simp [spreadNames, directSpreads, innerSpreads] at hm
  | selection :: rest => by
    rw [inlineSelections] at h
    obtain ⟨first, hfirst, h⟩ := bind_eq_ok_iff.1 h
    obtain ⟨others, hothers, -⟩ := bind_eq_ok_iff.1 h
    intro name hm
    rcases mem_spreadNames_cons.1 hm with hm | hm
    · exact areKnown_of_inlineSelection hfirst name hm
    · exact areKnown_of_inlineSelections hothers name hm
termination_by (n, sizeOf selections)

theorem areKnown_of_inlineSelection {n : Nat} {selection inlined : Selection}
    (h : inlineSelection document n selection = .ok inlined) : AreKnown document (spreadsAt selection) :=
  match selection with
  | .field f selections => by
    rw [inlineSelection] at h
    obtain ⟨inner, hi, -⟩ := bind_eq_ok_iff.1 h
    exact areKnown_of_inlineSelections hi
  | .inline condition directives selections => by
    rw [inlineSelection] at h
    obtain ⟨inner, hi, -⟩ := bind_eq_ok_iff.1 h
    exact areKnown_of_inlineSelections hi
  | .spread name directives => by
    rw [inlineSelection.eq_def] at h
    refine areKnown_iff.2 fun inner hl => ?_
    cases hf : fragment? document name with
    | none =>
      simp only [hf] at h
      cases h
    | some f =>
      cases n with
      | zero =>
        simp only [hf] at h
        cases h
      | succ n =>
        simp only [hf] at h
        obtain ⟨selections, hs, -⟩ := bind_eq_ok_iff.1 h
        rcases spreadsTo_singleton.1 hl with rfl | ⟨f', hf', hl⟩
        · simp [IsFragment, hf]
        · rw [hf] at hf'
          cases hf'
          exact areKnown_iff.1 (areKnown_of_inlineSelections hs) inner hl
termination_by (n, sizeOf selection)

end

theorem mem_of_mem_operations {o : Operation} (h : o ∈ operations document) : Definition.operation o ∈ document := by
  obtain ⟨d, hd, ho⟩ := List.mem_filterMap.1 h
  cases d with
  | operation o' =>
    cases ho
    exact hd
  | fragment f | schema s | schemaExtension s | type t | typeExtension t | directive d => cases ho

theorem mem_of_mem_fragments {f : Fragment} (h : f ∈ fragments document) : Definition.fragment f ∈ document := by
  obtain ⟨d, hd, hf⟩ := List.mem_filterMap.1 h
  cases d with
  | fragment f' =>
    cases hf
    exact hd
  | operation o | schema s | schemaExtension s | type t | typeExtension t | directive d => cases hf

/-- **Does an operation lead to a name that is not that of a fragment**, by a spread in it or in the fragments that it
spreads, directly or through others? -/
def SpreadsUnknown (document : Document) : Prop :=
  ∃ o ∈ operations document, ∃ name, SpreadsTo document (spreadNames o.selections) name ∧ ¬ IsFragment document name

/-- A document without cycles that cannot be inlined leads to an unknown fragment. -/
theorem unknown_of_inline (hno : HasNoCycle document) {cause : InliningError} (h : inline document = .error cause) :
    SpreadsUnknown document ∧ ∃ name, cause = .unknownFragment name := by
  obtain ⟨d, hd, h⟩ := exists_of_filterMapM_error h
  cases d with
  | operation o =>
    rcases bind_eq_error_iff.1 h with h | ⟨selections, -, h⟩
    · obtain ⟨name, rfl, hl, hf⟩ := unknown_of_inlineSelections hno .nil (by simp) (Nat.le_refl _) (by simp) h
      exact ⟨⟨o, List.mem_filterMap.2 ⟨_, hd, rfl⟩, name, hl, hf⟩, name, rfl⟩
    · cases h
  | fragment f | schema s | schemaExtension s | type t | typeExtension t | directive d => cases h

/-- **A document without cycles can be inlined** if and only if it leads to known fragments only. -/
theorem exists_inline_iff (hno : HasNoCycle document) :
    (∃ inlined, inline document = .ok inlined) ↔ ¬ SpreadsUnknown document := by
  constructor
  · rintro ⟨inlined, hi⟩ ⟨o, ho, name, hl, hf⟩
    obtain ⟨found, h, -⟩ := mem_filterMapM hi (mem_of_mem_operations ho)
    obtain ⟨selections, hs, -⟩ := bind_eq_ok_iff.1 h
    exact hf (areKnown_iff.1 (areKnown_of_inlineSelections hs) name hl)
  · intro hknown
    cases hi : inline document with
    | error cause => exact absurd (unknown_of_inline hno hi).1 hknown
    | ok inlined => exact ⟨inlined, rfl⟩

/-- A document without cycles can be inlined if its operations lead to known fragments only. -/
theorem exists_inline_of_areKnown (hno : HasNoCycle document)
    (hall : ∀ o ∈ operations document, AreKnown document (spreadNames o.selections)) :
    ∃ inlined, inline document = .ok inlined := by
  refine (exists_inline_iff hno).2 ?_
  rintro ⟨o, ho, name, hl, hf⟩
  exact hf (areKnown_iff.1 (hall o ho) name hl)

namespace Accepts

variable {schema : Schema}

theorem isFragment_of_visit (h : Accepts schema document) {visit : Visit} (hv : visit ∈ visits schema document)
    (he : visit.entering = true) {name : String} {directives : List Directive}
    (hn : visit.node = .spread name directives) : IsFragment document name := by
  have hknown := h.entry knownFragmentNames (by simp [queryRules]) rfl hv he
  rw [IsFragment]
  by_contra hno
  simp [hn, hno] at hknown

/-- The spreads in the selection set of an operation or fragment are of fragments. -/
theorem isFragment_of_spread (h : Accepts schema document) {d : Definition} (hd : d ∈ document)
    {selections : List Selection}
    (hset : ∀ visit ∈ selectionSetVisits schema (partsPosition schema document d) selections,
      visit ∈ definitionParts schema (partsPosition schema document d) d)
    {name : String} (hm : name ∈ spreadNames selections) : IsFragment document name := by
  obtain ⟨visit, hv, he, directives, hn⟩ := exists_visit_of_spread schema _ hm
  exact h.isFragment_of_visit (mem_visits_of_part hd (hset visit (mem_around.2 (.inr (.inl hv))))) he hn

/-- **An accepted document can be inlined.** -/
theorem exists_inline (h : Accepts schema document) : ∃ inlined, inline document = .ok inlined := by
  refine exists_inline_of_areKnown (fun name => (WellFounded.irrefl h.wellFounded_spreadIn.transGen).irrefl name) ?_
  refine fun o ho => areKnown_of_fragments (fun f hf inner hm => ?_) fun name hm => ?_
  · exact h.isFragment_of_spread (mem_of_mem_fragments hf) (fun visit hv => List.mem_append_right _ hv) hm
  · exact h.isFragment_of_spread (mem_of_mem_operations ho) (fun visit hv => List.mem_append_right _ hv) hm

end Accepts

end

end FixtureCheck.GraphQL
