import FixtureCheck.Proofs.Walk.Expected

/-!
# Trees of expectations that are edited

An edit of a tree changes the scope at its place (`at?_modifyAt`), and at other places nothing but what is below them
(`at?_modifyAt_of_not_prefix`); a new child comes after the others (`at?_edit_of_ne`). The scopes of a tree stand at
places, and `walk` goes through them in the order of these (`forall₂_placesBelow`, `pairwise_placesBelow`).
-/

namespace FixtureCheck.Fixture.Expectation

variable {root s : Expectation} {place q : Place}

/-! ## Places -/

@[simp] theorem at?_nil (e : Expectation) : e.at? [] = some e := by
  rw [at?]

theorem at?_cons (e : Expectation) (i : Nat) (rest : Place) :
    e.at? (i :: rest) = e.children[i]?.bind fun child => child.at? rest := by
  rw [at?]

theorem at?_append (rest : Place) : ∀ (place : Place) (e : Expectation),
    e.at? (place ++ rest) = (e.at? place).bind fun s => s.at? rest
  | [], e => by simp
  | i :: place, e => by
    rw [List.cons_append, at?_cons, at?_cons, Option.bind_assoc]
    exact Option.bind_congr fun child _ => at?_append rest place child

/-! ## Edits -/

/-- Have scopes the same but for what is below them? -/
structure IsLike (s s' : Expectation) : Prop where
  common : s.common = s'.common
  byType : s.byType = s'.byType
  typenameKey : s.typenameKey = s'.typenameKey
  objects : s.objects = s'.objects
  children : s.children.length = s'.children.length

theorem IsLike.refl (s : Expectation) : s.IsLike s := ⟨rfl, rfl, rfl, rfl, rfl⟩

theorem rel_refl : ∀ s : Option Expectation, Option.Rel IsLike s s
  | none => .none
  | some s => .some (.refl s)

/-- A scope that is changed is there with the change. -/
theorem at?_modifyAt (change : Expectation → Expectation) : ∀ {place : Place} {root : Expectation},
    root.at? place = some s → (modifyAt change place root).at? place = some (change s)
  | [], root, h => by
    rw [at?_nil, Option.some.injEq] at h
    rw [h, modifyAt, at?_nil]
  | i :: rest, root, h => by
    rw [at?_cons] at h
    obtain ⟨child, hi, h⟩ := Option.bind_eq_some_iff.1 h
    rw [modifyAt, at?_cons]
    simp only [List.getElem?_modify_eq, hi]
    exact at?_modifyAt change h

/-- Scopes that are not below the one that is changed keep what is not below them. -/
theorem at?_modifyAt_of_not_prefix (change : Expectation → Expectation) : ∀ {place q : Place} {root : Expectation},
    ¬ place <+: q → Option.Rel IsLike ((modifyAt change place root).at? q) (root.at? q)
  | [], q, root, h => absurd List.nil_prefix h
  | i :: rest, [], root, _ => by
    rw [modifyAt, at?_nil, at?_nil]
    exact .some ⟨rfl, rfl, rfl, rfl, List.length_modify ..⟩
  | i :: rest, j :: q, root, h => by
    rw [modifyAt, at?_cons, at?_cons, List.getElem?_modify]
    cases root.children[j]? with
    | none => exact .none
    | some child =>
      by_cases hij : i = j
      · subst hij
        have hrest : ¬ rest <+: q := fun hp => h (List.cons_prefix_cons.2 ⟨rfl, hp⟩)
        simpa using at?_modifyAt_of_not_prefix change hrest
      · simpa [hij] using rel_refl (child.at? q)

/-- The children of a scope after a change: those before and, it may be, a new one. -/
theorem children_apply (change : Change) (s : Expectation) : (apply change s).children =
    match change with
    | .child key => s.children ++ [{ key := some key }]
    | _ => s.children := by
  cases change with
  | record key condition possible => exact record_rest.2.2.1
  | child key => rfl
  | add objects => exact (addObjects_rest objects s).2.2.2.2
  | typenameKey key => rfl

/-- **What an edit does elsewhere**: a new scope comes to be after the other children, and no other scope changes but
below. -/
theorem at?_edit_of_ne {change : Change} (hs : root.at? place = some s) (hne : q ≠ place) :
    (∃ key, change = .child key ∧ q = place ++ [s.children.length] ∧ root.at? q = none ∧
      (edit root ⟨place, change⟩).at? q = some { key := some key }) ∨
    (∀ key, change = .child key → q ≠ place ++ [s.children.length]) ∧
      Option.Rel IsLike ((edit root ⟨place, change⟩).at? q) (root.at? q) := by
  rw [edit]
  by_cases hp : place <+: q
  · obtain ⟨rest, rfl⟩ := hp
    obtain ⟨i, rest, rfl⟩ := List.exists_cons_of_ne_nil (l := rest) fun hnil => hne (by rw [hnil, List.append_nil])
    have hbefore : root.at? (place ++ i :: rest) = s.children[i]?.bind fun child => child.at? rest := by
      rw [at?_append, hs, Option.bind_some, at?_cons]
    have hafter : (modifyAt (apply change) place root).at? (place ++ i :: rest) =
        (apply change s).children[i]?.bind fun child => child.at? rest := by
      rw [at?_append, at?_modifyAt _ hs, Option.bind_some, at?_cons]
    rw [hbefore, hafter, children_apply]
    cases change with
    | record _ _ _ | add _ | typenameKey _ => exact .inr ⟨nofun, rel_refl _⟩
    | child key =>
      dsimp only
      by_cases hi : i < s.children.length
      · rw [List.getElem?_append_left hi]
        refine .inr ⟨fun _ _ heq => ?_, rel_refl _⟩
        have := (List.cons.inj (List.append_cancel_left heq)).1
        omega
      · have hnone : s.children[i]? = none := List.getElem?_eq_none (by omega)
        rw [hnone, List.getElem?_append_right (by omega)]
        by_cases heq : i = s.children.length
        · subst heq
          simp only [Nat.sub_self, List.getElem?_cons_zero, Option.bind_some, Option.bind_none]
          cases rest with
          | nil => exact .inl ⟨key, rfl, rfl, trivial, at?_nil _⟩
          | cons j rest =>
            rw [at?_cons]
            exact .inr ⟨fun _ _ heq => by simp at heq, .none⟩
        · have hpast : ([{ key := some key }] : List Expectation)[i - s.children.length]? = none :=
            List.getElem?_eq_none (by simp; omega)
          rw [hpast]
          exact .inr ⟨fun _ _ h => heq (List.cons.inj (List.append_cancel_left h)).1, .none⟩
  · refine .inr ⟨fun _ _ heq => hp ?_, at?_modifyAt_of_not_prefix _ hp⟩
    rw [heq]
    exact List.prefix_append ..

/-! ## Scopes in order -/

/-- A scope that stands in a row of trees, below a place; the first of the trees has the index `i`. -/
def IsAmong (place : Place) (i : Nat) (trees : List Expectation) (q : Place) (s : Expectation) : Prop :=
  ∃ j rest, q = place ++ (i + j) :: rest ∧ (trees[j]?.bind fun tree => tree.at? rest) = some s

theorem isAmong_cons {place : Place} {i : Nat} {tree : Expectation} {trees : List Expectation} :
    IsAmong place i (tree :: trees) q s ↔
      (∃ rest, q = place ++ i :: rest ∧ tree.at? rest = some s) ∨ IsAmong place (i + 1) trees q s := by
  constructor
  · rintro ⟨j, rest, rfl, h⟩
    cases j with
    | zero => exact .inl ⟨rest, rfl, h⟩
    | succ j => exact .inr ⟨j, rest, by rw [Nat.add_assoc, Nat.add_comm 1 j], h⟩
  · rintro (⟨rest, rfl, h⟩ | ⟨j, rest, rfl, h⟩)
    · exact ⟨0, rest, rfl, h⟩
    · exact ⟨j + 1, rest, by rw [Nat.add_assoc, Nat.add_comm 1 j], h⟩

/-- A scope of a tree is the tree itself or stands among its children. -/
theorem at?_append_iff {place : Place} {i : Nat} {tree : Expectation} :
    (∃ rest, q = place ++ i :: rest ∧ tree.at? rest = some s) ↔
      q = place ++ [i] ∧ s = tree ∨ IsAmong (place ++ [i]) 0 tree.children q s := by
  constructor
  · rintro ⟨rest, rfl, h⟩
    cases rest with
    | nil =>
      rw [at?_nil, Option.some.injEq] at h
      exact .inl ⟨rfl, h.symm⟩
    | cons j rest =>
      rw [at?_cons] at h
      exact .inr ⟨j, rest, by simp, h⟩
  · rintro (⟨rfl, rfl⟩ | ⟨j, rest, rfl, h⟩)
    · exact ⟨[], rfl, at?_nil _⟩
    · refine ⟨j :: rest, by simp, ?_⟩
      rw [at?_cons]
      exact h

/-- **The places of trees in a row are those of their scopes**, in the order in which `walk` goes through these. -/
theorem forall₂_go : ∀ (place : Place) (i : Nat) (trees : List Expectation),
    List.Forall₂ (IsAmong place i trees) (placesBelow.go place i trees) (walkAll trees)
  | place, i, [] => by
    rw [placesBelow.go, walkAll]
    exact .nil
  | place, i, ⟨key, common, byType, typenameKey, children, objects⟩ :: rest => by
    rw [placesBelow.go, walkAll, walk, List.cons_append]
    refine .cons (isAmong_cons.2 (.inl (at?_append_iff.2 (.inl ⟨rfl, rfl⟩)))) (List.rel_append ?_ ?_)
    · exact (forall₂_go (place ++ [i]) 0 children).imp fun _ _ h => isAmong_cons.2 (.inl (at?_append_iff.2 (.inr h)))
    · exact (forall₂_go place (i + 1) rest).imp fun _ _ h => isAmong_cons.2 (.inr h)

theorem mem_go_iff : ∀ {place : Place} {i : Nat} {trees : List Expectation},
    q ∈ placesBelow.go place i trees ↔ ∃ s, IsAmong place i trees q s
  | place, i, [] => by
    simp [placesBelow.go, IsAmong]
  | place, i, ⟨key, common, byType, typenameKey, children, objects⟩ :: rest => by
    have hbelow : q ∈ placesBelow.go (place ++ [i]) 0 children ↔ ∃ s, IsAmong (place ++ [i]) 0 children q s :=
      mem_go_iff
    have hbeside : q ∈ placesBelow.go place (i + 1) rest ↔ ∃ s, IsAmong place (i + 1) rest q s := mem_go_iff
    simp only [placesBelow.go, List.mem_cons, List.mem_append, hbelow, hbeside, isAmong_cons, at?_append_iff,
      exists_or, exists_and_left, exists_eq, and_true, or_assoc]

/-- The places of trees in a row go upwards. -/
theorem pairwise_go : ∀ (place : Place) (i : Nat) (trees : List Expectation),
    (placesBelow.go place i trees).Pairwise (· < ·)
  | place, i, [] => by
    rw [placesBelow.go]
    exact .nil
  | place, i, ⟨key, common, byType, typenameKey, children, objects⟩ :: rest => by
    have hplace : ∀ {place i trees q}, q ∈ placesBelow.go place i trees → ∃ j rest, q = place ++ (i + j) :: rest := by
      intro place i trees q hq
      obtain ⟨s, j, rest, heq, -⟩ := mem_go_iff.1 hq
      exact ⟨j, rest, heq⟩
    rw [placesBelow.go, List.pairwise_cons, List.pairwise_append]
    have hfirst : ∀ q ∈ placesBelow.go (place ++ [i]) 0 children, ∃ rest, rest ≠ [] ∧ q = place ++ i :: rest := by
      intro q hq
      obtain ⟨j, rest, rfl⟩ := hplace hq
      exact ⟨(0 + j) :: rest, List.cons_ne_nil _ _, by simp⟩
    have hlater : ∀ q ∈ placesBelow.go place (i + 1) rest, ∀ tail, place ++ i :: tail < q := by
      intro q hq tail
      obtain ⟨j, rest, rfl⟩ := hplace hq
      exact List.append_left_lt (List.cons_lt_cons_iff.2 (.inl (by omega)))
    refine ⟨fun q hq => ?_, pairwise_go (place ++ [i]) 0 children, pairwise_go place (i + 1) rest,
      fun q hq q' hq' => ?_⟩
    · rcases List.mem_append.1 hq with hq | hq
      · obtain ⟨tail, hne, rfl⟩ := hfirst q hq
        obtain ⟨j, tail, rfl⟩ := List.exists_cons_of_ne_nil hne
        exact List.append_left_lt (List.cons_lt_cons_iff.2 (.inr ⟨rfl, List.nil_lt_cons _ _⟩))
      · exact hlater q hq []
    · obtain ⟨tail, -, rfl⟩ := hfirst q hq
      exact hlater q' hq' tail

theorem placesBelow_nil (root : Expectation) : root.placesBelow [] = [] :: placesBelow.go [] 0 root.children := by
  rw [placesBelow, at?_nil]

/-- Where a scope stands among the children of a tree, it stands in the tree. -/
theorem isAmong_children : IsAmong [] 0 root.children q s ↔ q ≠ [] ∧ root.at? q = some s := by
  constructor
  · rintro ⟨j, rest, rfl, h⟩
    refine ⟨by simp, ?_⟩
    rw [List.nil_append, Nat.zero_add, at?_cons]
    exact h
  · rintro ⟨hne, h⟩
    obtain ⟨j, rest, rfl⟩ := List.exists_cons_of_ne_nil hne
    rw [at?_cons] at h
    exact ⟨j, rest, by simp, h⟩

/-- **The places of a tree are those of its scopes**, in the order in which `walk` goes through them. -/
theorem forall₂_placesBelow (root : Expectation) :
    List.Forall₂ (fun q s => root.at? q = some s) (root.placesBelow []) root.walk := by
  have hwalk : root.walk = root :: walkAll root.children := by
    obtain ⟨key, common, byType, typenameKey, children, objects⟩ := root
    rw [walk]
  rw [placesBelow_nil, hwalk]
  exact .cons (at?_nil root) ((forall₂_go [] 0 root.children).imp fun _ _ h => (isAmong_children.1 h).2)

theorem mem_placesBelow : q ∈ root.placesBelow [] ↔ ∃ s, root.at? q = some s := by
  rw [placesBelow_nil, List.mem_cons, mem_go_iff]
  simp only [isAmong_children]
  by_cases hq : q = []
  · simp [hq]
  · simp [hq]

/-- The places of a tree go upwards: a scope stands before its children, and these one after the other. -/
theorem pairwise_placesBelow (root : Expectation) : (root.placesBelow []).Pairwise (· < ·) := by
  rw [placesBelow_nil, List.pairwise_cons]
  refine ⟨fun q hq => ?_, pairwise_go [] 0 root.children⟩
  obtain ⟨s, h⟩ := mem_go_iff.1 hq
  obtain ⟨j, rest, rfl⟩ := List.exists_cons_of_ne_nil (isAmong_children.1 h).1
  exact List.nil_lt_cons _ _

theorem forall₂_map_eq {α β γ : Type} {f : α → γ} {g : β → γ} {as : List α} {bs : List β}
    (h : List.Forall₂ (fun a b => f a = g b) as bs) : as.map f = bs.map g := by
  rw [← List.forall₂_eq_eq_eq, List.forall₂_map_left_iff, List.forall₂_map_right_iff]
  exact h

/-- The scopes that `walk` goes through are those at places. -/
theorem mem_walk_iff : s ∈ root.walk ↔ ∃ q, root.at? q = some s := by
  have hwalk : (root.placesBelow []).map root.at? = root.walk.map some := forall₂_map_eq (forall₂_placesBelow root)
  constructor
  · intro hs
    have hmem : some s ∈ (root.placesBelow []).map root.at? := hwalk ▸ List.mem_map_of_mem hs
    obtain ⟨q, -, hq⟩ := List.mem_map.1 hmem
    exact ⟨q, hq⟩
  · rintro ⟨q, hq⟩
    have hmem : some s ∈ root.walk.map some := hwalk ▸ List.mem_map.2 ⟨q, mem_placesBelow.2 ⟨s, hq⟩, hq⟩
    obtain ⟨s', hs', heq⟩ := List.mem_map.1 hmem
    exact Option.some.inj heq ▸ hs'

end FixtureCheck.Fixture.Expectation
