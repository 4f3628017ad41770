import FixtureCheck.GraphQL.Schema.Draft
import FixtureCheck.Proofs.Except

/-!
# Collected types

A schema has the types of its draft and those that they refer to. The search for them is bounded in depth by the number
of known types, which is enough: it ends with a list of names without repetitions that is closed under references
(`isClosed_of_collectAll`, `Searches.foldlM`).
-/

namespace FixtureCheck.GraphQL

/-- The names of types that a type refers to. -/
def TypeDetails.references : TypeDetails → List String
  | object interfaces fields | interface interfaces fields =>
    interfaces ++ fields.flatMap fun f => f.type.base :: f.arguments.map (·.type.base)
  | union members => members
  | input fields _ => fields.map (·.type.base)
  | _ => []

/-- The names that the type under a name refers to, if its parts are right. -/
def references (types : List (String × DraftDetails)) (name : String) : List String :=
  match (draftDetails? types name).map DraftDetails.details with
  | some (.ok details) => details.references
  | _ => []

/-- The names that have details. -/
def knownNames (types : List (String × DraftDetails)) : List String := types.map (·.1) ++ Standard.types.map (·.name)

/-- The number of known names that are still to be collected. -/
def remaining (types : List (String × DraftDetails)) (names : List String) : Nat :=
  (knownNames types).countP (!names.contains ·)

variable {types : List (String × DraftDetails)} {name : String} {state state' state'' : Collection} {n : Nat}

theorem mem_knownNames {d : DraftDetails} (h : draftDetails? types name = some d) : name ∈ knownNames types := by
  unfold draftDetails? at h
  unfold knownNames
  rw [List.mem_append]
  cases hs : Standard.type? name with
  | some t =>
    have hname : t.name = name := by simpa using List.find?_some hs
    exact .inr (List.mem_map.2 ⟨t, List.mem_of_find?_eq_some hs, hname⟩)
  | none =>
    rw [hs] at h
    simp only [List.lookup_eq_some_iff] at h
    obtain ⟨before, after, rfl, -⟩ := h
    exact .inl (by simp)

theorem remaining_anti {names names' : List String} (h : names ⊆ names') :
    remaining types names' ≤ remaining types names := by
  refine List.countP_mono_left fun x _ hx => ?_
  simp only [Bool.not_eq_eq_eq_not, Bool.not_true, List.contains_eq_mem, decide_eq_false_iff_not] at hx ⊢
  exact fun hm => hx (h hm)

/-- A known name that is collected is one less to be collected. -/
theorem remaining_lt {names : List String} (hk : name ∈ knownNames types) (hn : name ∉ names) :
    remaining types (names ++ [name]) < remaining types names := by
  obtain ⟨before, after, hsplit⟩ := List.append_of_mem hk
  have hanti : ∀ part : List String,
      part.countP (!(names ++ [name]).contains ·) ≤ part.countP (!names.contains ·) := by
    intro part
    refine List.countP_mono_left fun x _ hx => ?_
    simp only [List.contains_append, Bool.not_or, Bool.and_eq_true] at hx
    exact hx.1
  have hbefore := hanti before
  have hafter := hanti after
  unfold remaining
  rw [hsplit, List.countP_append, List.countP_append, List.countP_cons_of_neg (by simp),
    List.countP_cons_of_pos (by simpa using hn)]
  omega

/-- **What the search for wanted names makes of a collection.** -/
structure Collects (types : List (String × DraftDetails)) (wanted : List String) (state state' : Collection) :
    Prop where
  ahead : state'.ahead = state.ahead
  kept : state.names ⊆ state'.names
  found : ∀ name ∈ wanted, name ∈ state'.names ∨ name ∈ state.ahead
  closed : ∀ name ∈ state'.names, name ∈ state.names ∨
    ∀ r ∈ references types name, r ∈ state'.names ∨ r ∈ state.ahead
  fresh : ∀ name ∈ state.ahead, name ∈ state'.names → name ∈ state.names
  nodup : state.names.Nodup → state'.names.Nodup

namespace Collects

theorem refl (types : List (String × DraftDetails)) (state : Collection) : Collects types [] state state where
  ahead := rfl
  kept _ := id
  found := by simp
  closed _ h := .inl h
  fresh _ _ := id
  nodup := id

theorem trans {wanted wanted' : List String} (h : Collects types wanted state state')
    (h' : Collects types wanted' state' state'') : Collects types (wanted ++ wanted') state state'' where
  ahead := h'.ahead.trans h.ahead
  kept _ hm := h'.kept (h.kept hm)
  found name hm := by
    rcases List.mem_append.1 hm with hm | hm
    · exact (h.found name hm).imp_left fun hm => h'.kept hm
    · have hfound := h'.found name hm
      rw [h.ahead] at hfound
      exact hfound
  closed name hm := by
    rcases h'.closed name hm with hm | hr
    · rcases h.closed name hm with hm | hr
      · exact .inl hm
      · exact .inr fun r hm => (hr r hm).imp_left fun hm => h'.kept hm
    · rw [h.ahead] at hr
      exact .inr hr
  fresh name ha hm := by
    have ha' : name ∈ state'.ahead := by rwa [h.ahead]
    exact h.fresh name ha (h'.fresh name ha' hm)
  nodup hn := h'.nodup (h.nodup hn)

end Collects

/-! ## The search -/

/-- The search from a name, with enough fuel for the names that are left, comes to the name and what it refers to. -/
def Searches (types : List (String × DraftDetails)) (n : Nat) : Prop :=
  ∀ {name : String} {state state' : Collection}, remaining types state.names < n →
    collectType types n state name = .ok state' → Collects types [name] state state'

/-- A search from several names comes to all of them. -/
theorem Searches.foldlM (hs : Searches types n) : ∀ {names : List String} {state state' : Collection},
    remaining types state.names < n → names.foldlM (collectType types n) state = .ok state' →
      Collects types names state state'
  | [], state, state', _, h => by
    cases h
    exact .refl types state
  | name :: rest, state, state', hn, h => by
    rw [List.foldlM_cons, bind_eq_ok_iff] at h
    obtain ⟨between, hfirst, hrest⟩ := h
    have hc := hs hn hfirst
    have hle : remaining types between.names ≤ remaining types state.names := remaining_anti hc.kept
    exact hc.trans (hs.foldlM (Nat.lt_of_le_of_lt hle hn) hrest)

/-- Steps in a row that are made of smaller steps. -/
theorem foldlM_flatMap {α β σ ε : Type} {parts : α → List β} {step : σ → β → Except ε σ} {long : σ → α → Except ε σ}
    (hlong : ∀ a s s', long s a = .ok s' → (parts a).foldlM step s = .ok s') : ∀ {as : List α} {s s' : σ},
    as.foldlM long s = .ok s' → (as.flatMap parts).foldlM step s = .ok s'
  | [], s, s', h => h
  | a :: rest, s, s', h => by
    rw [List.foldlM_cons, bind_eq_ok_iff] at h
    obtain ⟨between, hfirst, hrest⟩ := h
    rw [List.flatMap_cons, List.foldlM_append, bind_eq_ok_iff]
    exact ⟨between, hlong a s between hfirst, foldlM_flatMap hlong hrest⟩

/-- The search from the parts of a type goes on with the names that the type refers to. -/
theorem foldlM_references (h : collectParts types (n + 1) state name = .ok state') :
    (references types name).foldlM (collectType types n) { state with names := state.names ++ [name] } =
      .ok state' := by
  rw [collectParts] at h
  unfold references
  cases hd : draftDetails? types name with
  | none =>
    rw [hd] at h
    exact h
  | some d =>
    rw [hd] at h
    -- the fields of a type refer to their own types and to those of their arguments
    have hfields : ∀ {fields : List OutputField} {s s' : Collection},
        fields.foldlM (fun state (f : OutputField) => do
          let state ← collectType types n state f.type.base
          f.arguments.foldlM (fun state (a : InputValue) => collectType types n state a.type.base) state) s = .ok s' →
        (fields.flatMap fun f => f.type.base :: f.arguments.map (·.type.base)).foldlM (collectType types n) s =
          .ok s' := by
      intro fields s s' h
      refine foldlM_flatMap (fun f s s' h => ?_) h
      rw [List.foldlM_cons, bind_eq_ok_iff]
      obtain ⟨between, hbase, harguments⟩ := bind_eq_ok_iff.1 h
      refine ⟨between, hbase, ?_⟩
      rw [List.foldlM_map]
      exact harguments
    cases d with
    | scalar => exact h
    | enum values => exact h
    | union members =>
      obtain ⟨names, hm, hfold⟩ := bind_eq_ok_iff.1 h
      subst hm
      exact hfold
    | input fields isOneOf =>
      obtain ⟨values, hf, hfold⟩ := bind_eq_ok_iff.1 h
      subst hf
      show (values.map (·.type.base)).foldlM (collectType types n) _ = _
      rw [List.foldlM_map]
      exact hfold
    | object interfaces fields | interface interfaces fields =>
      obtain ⟨names, hi, hafter⟩ := bind_eq_ok_iff.1 h
      obtain ⟨between, hnames, hrest⟩ := bind_eq_ok_iff.1 hafter
      obtain ⟨outputs, hf, hfold⟩ := bind_eq_ok_iff.1 hrest
      subst hi hf
      show (names ++ outputs.flatMap _).foldlM (collectType types n) _ = _
      rw [List.foldlM_append, bind_eq_ok_iff]
      exact ⟨between, hnames, hfields hfold⟩

/-- The search from the parts of a type comes to the type and what it refers to. -/
theorem Searches.collectParts (hs : Searches types n) (hnames : name ∉ state.names) (hahead : name ∉ state.ahead)
    (hn : remaining types state.names < n + 1) (h : collectParts types (n + 1) state name = .ok state') :
    Collects types [name] state state' := by
  have hc : Collects types (references types name) { state with names := state.names ++ [name] } state' := by
    have hfold := foldlM_references h
    cases hd : draftDetails? types name with
    | none =>
      have hnil : references types name = [] := by simp [references, hd]
      rw [hnil] at hfold ⊢
      cases hfold
      exact .refl types _
    | some d =>
      have hlt := remaining_lt (mem_knownNames hd) hnames
      exact hs.foldlM (Nat.lt_of_lt_of_le hlt (Nat.le_of_lt_succ hn)) hfold
  refine ⟨hc.ahead, fun x hx => hc.kept (List.mem_append_left _ hx), ?_, fun x hx => ?_, fun x ha hx => ?_,
    fun hnd => ?_⟩
  · intro x hx
    rw [List.mem_singleton.1 hx]
    exact .inl (hc.kept (List.mem_append_right _ (List.mem_singleton_self name)))
  · rcases hc.closed x hx with hx | hr
    · rcases List.mem_append.1 hx with hx | hx
      · exact .inl hx
      · rw [List.mem_singleton.1 hx]
        exact .inr hc.found
    · exact .inr hr
  · rcases List.mem_append.1 (hc.fresh x ha hx) with hx | hx
    · exact hx
    · rw [List.mem_singleton.1 hx] at ha
      exact absurd ha hahead
  · refine hc.nodup (List.nodup_append.2 ⟨hnd, by simp, fun a ha b hb => ?_⟩)
    rw [List.mem_singleton.1 hb]
    rintro rfl
    exact hnames ha

/-- **With enough fuel for the names that are left, a search comes to all that it should.** -/
theorem searches (types : List (String × DraftDetails)) : ∀ n, Searches types n
  | 0, _, _, _, hn, _ => absurd hn (Nat.not_lt_zero _)
  | n + 1, name, state, state', hn, h => by
    rw [collectType] at h
    split at h
    · rename_i hskip
      cases h
      have hfound : name ∈ state.names ∨ name ∈ state.ahead := by simpa using hskip
      exact ⟨rfl, fun _ => id, by simpa using hfound, fun _ hm => .inl hm, fun _ _ => id, id⟩
    · rename_i hnew
      simp only [Bool.or_eq_true, not_or, Bool.not_eq_true, List.contains_eq_mem, decide_eq_false_iff_not] at hnew
      exact Searches.collectParts (searches types n) hnew.1 hnew.2 hn h

/-- Is a list of names, without repetitions, closed under references, but for those to some other names? -/
structure IsClosed (types : List (String × DraftDetails)) (names others : List String) : Prop where
  nodup : names.Nodup
  closed : ∀ name ∈ names, ∀ r ∈ references types name, r ∈ names ∨ r ∈ others

/-- A search that comes to the other names, as far as they will not come in their own turn. -/
theorem Collects.isClosed {wanted others : List String} (h : Collects types wanted state state')
    (ho : ∀ name ∈ others, name ∈ wanted ∨ name ∈ state.ahead) (hc : IsClosed types state.names others) :
    IsClosed types state'.names state.ahead where
  nodup := h.nodup hc.nodup
  closed name hm r hr := by
    rcases h.closed name hm with hm | hclosed
    · rcases hc.closed name hm r hr with hm | hm
      · exact .inl (h.kept hm)
      · exact (ho r hm).elim (h.found r) .inr
    · exact hclosed r hr

/-- **Collecting all types of a draft, each in its turn, comes to a closed list of names.** -/
theorem isClosed_of_collectAll (hn : remaining types [] < n + 1) : ∀ {names : List String} {state state' : Collection},
    names.Nodup → (∀ name ∈ names, name ∉ state.names) → state.ahead = names → IsClosed types state.names names →
      collectAll types (n + 1) state names = .ok state' →
        state.names ++ names ⊆ state'.names ∧ state'.ahead = [] ∧ IsClosed types state'.names []
  | [], state, state', _, _, ha, hc, h => by
    rw [collectAll] at h
    cases h
    rw [List.append_nil]
    exact ⟨fun _ => id, ha, hc⟩
  | name :: rest, state, state', hnd, hnew, ha, hc, h => by
    rw [collectAll, bind_eq_ok_iff] at h
    obtain ⟨between, hfirst, hrest⟩ := h
    obtain ⟨hname, hnd⟩ := List.nodup_cons.1 hnd
    have hfuel : remaining types state.names < n + 1 :=
      Nat.lt_of_le_of_lt (remaining_anti (List.nil_subset _)) hn
    have hs : Collects types [name] { state with ahead := rest } between :=
      Searches.collectParts (searches types n) (hnew name (List.mem_cons_self ..)) hname hfuel hfirst
    have hfound : name ∈ between.names := (hs.found name (List.mem_singleton_self name)).resolve_right hname
    have hahead : between.ahead = rest := hs.ahead
    have hclosed : IsClosed types between.names rest := hs.isClosed (fun x hx => by simpa using hx) hc
    -- what comes in its own turn is not collected before
    have hfresh : ∀ x ∈ rest, x ∉ between.names :=
      fun x hx hm => hnew x (List.mem_cons_of_mem name hx) (hs.fresh x hx hm)
    obtain ⟨hkept, hdone⟩ := isClosed_of_collectAll hn hnd hfresh hahead hclosed hrest
    refine ⟨fun x hx => hkept ?_, hdone⟩
    rcases List.mem_append.1 hx with hx | hx
    · exact List.mem_append_left _ (hs.kept hx)
    · rcases List.mem_cons.1 hx with rfl | hx
      · exact List.mem_append_left _ hfound
      · exact List.mem_append_right _ hx

end FixtureCheck.GraphQL
