import FixtureCheck.Proofs.Query.Typed
import FixtureCheck.Proofs.Walk.Reach
import FixtureCheck.Proofs.Walk.Shape

/-!
# Objects and their places

The objects that a walk goes on with stand in the fixture at their paths (`Located.IsIn`), so two objects at one place
are one object (`Located.eq_of_path`). A path tells the object and the key under which an object was found, whatever
arrays lie between (`path_cancel`). `Walked` gathers what holds of a walk through a typed selection set that is not cut
off; it goes down to all sets that the walk reaches (`Walked.of_reaches`).
-/

namespace FixtureCheck

/-! ## Positions in values -/

theorem Json.get?_append (root : Json) : ∀ p q : Json.Path, root.get? (p ++ q) = (root.get? p).bind (·.get? q)
  | [], q => by simp [get?]
  | step :: p, q => by
    cases root with
    | obj entries =>
      cases step with
      | key name =>
        simp only [List.cons_append, get?]
        cases lookup entries name with
        | none => rfl
        | some v => exact get?_append v p q
      | index i => simp [get?]
    | arr items =>
      cases step with
      | key name => simp [get?]
      | index i =>
        simp only [List.cons_append, get?]
        cases items[i]? with
        | none => rfl
        | some v => exact get?_append v p q
    | null | bool b | int n | float x | str s => simp [get?]
termination_by p => p.length

theorem Json.get?_key {value inner : Json} {key : String} (h : value.field? key = some inner) :
    value.get? [.key key] = some inner := by
  cases value with
  | obj entries =>
    simp only [field?] at h
    simp [get?, h]
  | null | bool b | int n | float x | str s | arr items => simp [field?] at h

/-- Is a step one into an array? -/
def Json.Step.isIndex : Json.Step → Bool
  | .index _ => true
  | .key _ => false

/-- The last key of a path and what is before it can be told from the path. -/
theorem path_cancel {p p' q q' : Json.Path} {k k' : String} (hq : ∀ s ∈ q, s.isIndex = true)
    (hq' : ∀ s ∈ q', s.isIndex = true) (h : p ++ .key k :: q = p' ++ .key k' :: q') : p = p' ∧ k = k' := by
  have hdrop : ∀ (p q : Json.Path) (k : String), (∀ s ∈ q, s.isIndex = true) →
      (p ++ .key k :: q).reverse.dropWhile Json.Step.isIndex = .key k :: p.reverse := by
    intro p q k hq
    rw [List.reverse_append, List.reverse_cons, List.append_assoc]
    rw [List.dropWhile_append_of_pos fun s hs => hq s (List.mem_reverse.1 hs)]
    rfl
  have hsame := hdrop p q k hq
  rw [h, hdrop p' q' k' hq'] at hsame
  obtain ⟨hk, hp⟩ := List.cons_eq_cons.1 hsame
  exact ⟨(List.reverse_inj.1 hp).symm, (Json.Step.key.inj hk).symm⟩

namespace Fixture

/-- Does a value stand in a fixture, at its place? -/
def Located.IsIn (fixture : Json) (v : Located) : Prop := fixture.get? v.path = some v.value

/-- At one place there is one value. -/
theorem Located.eq_of_path {fixture : Json} {u v : Located} (hu : u.IsIn fixture) (hv : v.IsIn fixture)
    (h : u.path = v.path) : u = v := by
  obtain ⟨p, a⟩ := u
  obtain ⟨q, b⟩ := v
  subst h
  rw [IsIn] at hu hv
  rw [hu] at hv
  cases hv
  rfl

theorem Located.isIn_field? {fixture : Json} {v w : Located} {key : String} (hv : v.IsIn fixture)
    (h : v.field? key = some w) :
    w.IsIn fixture ∧ w.path = v.path ++ [.key key] ∧ v.value.field? key = some w.value := by
  obtain ⟨inner, hi, rfl⟩ := Option.map_eq_some_iff.1 h
  refine ⟨?_, rfl, hi⟩
  rw [IsIn] at hv ⊢
  rw [Json.get?_append, hv]
  exact Json.get?_key hi

mutual

/-- The objects in a value are objects, and stand in it below some indexes. -/
theorem mem_objectsAt {path : Json.Path} {o : Located} : ∀ {value : Json}, o ∈ objectsAt path value →
    kindOf o.value = .object ∧ ∃ q : Json.Path, (∀ s ∈ q, s.isIndex = true) ∧ o.path = path ++ q ∧
      value.get? q = some o.value
  | .obj entries, h => by
    rw [objectsAt, List.mem_singleton] at h
    subst h
    exact ⟨rfl, [], by simp, by simp, by simp [Json.get?]⟩
  | .arr items, h => by
    rw [objectsAt] at h
    obtain ⟨hk, i, q, item, hq, hp, hi, hg⟩ := mem_objectsAmong h
    refine ⟨hk, .index i :: q, ?_, hp, ?_⟩
    · exact List.forall_mem_cons.2 ⟨rfl, hq⟩
    · simp only [Nat.sub_zero] at hi
      simp [Json.get?, hi, hg]
  | .null, h | .bool _, h | .int _, h | .float _, h | .str _, h => by simp [objectsAt] at h

theorem mem_objectsAmong {path : Json.Path} {o : Located} : ∀ {start : Nat} {items : List Json},
    o ∈ objectsAmong path start items → kindOf o.value = .object ∧ ∃ (i : Nat) (q : Json.Path) (item : Json),
      (∀ s ∈ q, s.isIndex = true) ∧ o.path = path ++ .index i :: q ∧
        (start ≤ i ∧ items[i - start]? = some item) ∧ item.get? q = some o.value
  | start, [], h => by simp [objectsAmong] at h
  | start, item :: rest, h => by
    rw [objectsAmong, List.mem_append] at h
    rcases h with h | h
    · obtain ⟨hk, q, hq, hp, hg⟩ := mem_objectsAt h
      exact ⟨hk, start, q, item, hq, by simpa using hp, ⟨Nat.le_refl _, by simp⟩, hg⟩
    · obtain ⟨hk, i, q, item', hq, hp, ⟨hle, hi⟩, hg⟩ := mem_objectsAmong h
      refine ⟨hk, i, q, item', hq, hp, ⟨by omega, ?_⟩, hg⟩
      have hsub : i - start = (i - (start + 1)) + 1 := by omega
      rw [hsub, List.getElem?_cons_succ]
      exact hi

end

theorem isIn_objectsAt {fixture : Json} {v o : Located} (hv : v.IsIn fixture) (h : o ∈ objectsAt v.path v.value) :
    o.IsIn fixture := by
  obtain ⟨-, q, -, hp, hg⟩ := mem_objectsAt h
  rw [Located.IsIn] at hv ⊢
  rw [hp, Json.get?_append, hv]
  exact hg

/-! ## Typed fields -/

section

open GraphQL (Schema Field Selection OutputField AreTyped)

variable {schema : Schema}

/-- What the type of a selected field says about its selections. -/
def FieldIsTyped (schema : Schema) (definition : OutputField) (selections : List Selection) : Prop :=
  schema.isLeaf definition.type.base = true ∧ selections = [] ∨
    schema.isComposite definition.type.base = true ∧ selections ≠ [] ∧
      AreTyped schema definition.type.base selections

mutual

/-- The fields met in a typed selection set are typed. -/
theorem fieldIsTyped_of_mem_metIn {declared : String} {conditions : List String} {m : Met} :
    ∀ {selections : List Selection}, AreTyped schema (conditions.getLastD declared) selections →
      m ∈ metIn conditions selections → ∃ definition,
        schema.fieldOf? (some (m.type declared)) m.field.name = some definition ∧
          FieldIsTyped schema definition m.selections
  | [], _, hm => by simp [metIn] at hm
  | selection :: rest, ht, hm => by
    rw [AreTyped] at ht
    rw [metIn, List.mem_append] at hm
    rcases hm with hm | hm
    · exact fieldIsTyped_of_mem_metAt ht.1 hm
    · exact fieldIsTyped_of_mem_metIn ht.2 hm

theorem fieldIsTyped_of_mem_metAt {declared : String} {conditions : List String} {m : Met} :
    ∀ {selection : Selection}, selection.IsTyped schema (conditions.getLastD declared) →
      m ∈ metAt conditions selection → ∃ definition,
        schema.fieldOf? (some (m.type declared)) m.field.name = some definition ∧
          FieldIsTyped schema definition m.selections
  | .field f selections, ht, hm => by
    rw [Selection.IsTyped] at ht
    rw [metAt, List.mem_singleton] at hm
    subst hm
    exact ht
  | .spread .., _, hm => by simp [metAt] at hm
  | .inline condition _ selections, ht, hm => by
    rw [Selection.IsTyped] at ht
    rw [metAt] at hm
    have htype : (conditions ++ condition.toList).getLastD declared =
        condition.getD (conditions.getLastD declared) := by
      cases condition <;> simp [List.getLastD_eq_getLast?]
    exact fieldIsTyped_of_mem_metIn (htype ▸ ht.2) hm

end

/-! ## Walks through fixtures -/

/-- The objects below a field are those that the checks of the field go on with. -/
theorem mem_values_below {narrowed : Frame} {key : String} {definition : OutputField} {o : Located} :
    o ∈ (narrowed.below schema key definition).values ↔
      ∃ u ∈ narrowed.values, o ∈ (checkField schema narrowed key definition.type u).children := by
  show o ∈ (checkAll schema narrowed key definition.type).children ↔ _
  rw [checkAll_eq, List.mem_flatMap]

/-- **What holds of a walk through a typed selection set and a fixture that is not cut off.** -/
structure Walked (schema : Schema) (fixture : Json) (top : List Selection) (start : Frame) (tree : Expectation) :
    Prop where
  builds : Builds schema top start tree
  typed : AreTyped schema start.type top
  composite : schema.isComposite start.type = true
  isAt : start.IsAt schema start.type start.values []
  values : ∀ v ∈ start.values, v.IsIn fixture ∧ kindOf v.value = .object

namespace Walked

variable {fixture : Json} {top selections : List Selection} {start frame narrowed : Frame} {tree : Expectation}
  {m : Met} {definition : OutputField}

theorem mem_metIn (h : Walked schema fixture top start tree) (hl : LooksAt schema top start narrowed m definition) :
    m ∈ metIn [] top := hl.mem_metIn h.builds.not_stop

/-- A walk looks at a field in a frame of the type conditions around it. -/
theorem isAt_narrowed (h : Walked schema fixture top start tree) (hl : LooksAt schema top start narrowed m definition) :
    narrowed.IsAt schema start.type start.values m.conditions := isAt_of_field_mem h.isAt hl.step

/-- The definition of a field follows from the query alone. -/
theorem fieldOf? (h : Walked schema fixture top start tree) (hl : LooksAt schema top start narrowed m definition) :
    schema.fieldOf? (some (m.type start.type)) m.field.name = some definition := by
  have htype : narrowed.type = m.type start.type := (h.isAt_narrowed hl).type
  rw [← htype]
  exact hl.known

theorem fieldIsTyped (h : Walked schema fixture top start tree) (hl : LooksAt schema top start narrowed m definition) :
    FieldIsTyped schema definition m.selections := by
  have htop : AreTyped schema (([] : List String).getLastD start.type) top := h.typed
  obtain ⟨definition', hd, ht⟩ := fieldIsTyped_of_mem_metIn htop (h.mem_metIn hl)
  rw [h.fieldOf? hl] at hd
  cases hd
  exact ht

/-- Only fields of types with fields have selections of their own. -/
theorem isComposite_of_nonempty (h : Walked schema fixture top start tree)
    (hl : LooksAt schema top start narrowed m definition) (hne : m.selections ≠ []) :
    schema.isComposite definition.type.base = true ∧ AreTyped schema definition.type.base m.selections := by
  rcases h.fieldIsTyped hl with ⟨-, hnil⟩ | ⟨hc, -, ht⟩
  · exact absurd hnil hne
  · exact ⟨hc, ht⟩

/-- A walk goes on below a field with selections of its own. -/
theorem below (hw : schema.IsWellFormed) (h : Walked schema fixture top start tree)
    (hl : LooksAt schema top start narrowed m definition) (hne : m.selections ≠ []) :
    ∃ child ∈ tree.children,
      Walked schema fixture m.selections (narrowed.below schema m.field.key definition) child := by
  obtain ⟨child, hc, hb⟩ := h.builds.exists_child hl hne
  obtain ⟨hcomposite, ht⟩ := h.isComposite_of_nonempty hl hne
  refine ⟨child, hc, hb, ht, hcomposite, Frame.isAt_forField .., fun o ho => ?_⟩
  obtain ⟨u, hu, ho⟩ := mem_values_below.1 ho
  obtain ⟨v, hv, ho⟩ := mem_children_checkField hcomposite (hw.fieldOf? hl.known).2 ho
  have hin := (h.values u ((h.isAt_narrowed hl).values.subset hu)).1
  exact ⟨isIn_objectsAt (Located.isIn_field? hin hv).1 ho, (mem_objectsAt ho).1⟩

/-- **What holds of a walk holds of the walks through the sets that it reaches.** -/
theorem of_reaches (hw : schema.IsWellFormed) (h : Walked schema fixture top start tree)
    (hr : Reaches schema top start selections frame) :
    ∃ scope ∈ tree.walk, Walked schema fixture selections frame scope := by
  induction hr with
  | here => exact ⟨tree, mem_walk.2 (.inl rfl), h⟩
  | field _ looks nonempty ih =>
    obtain ⟨scope, hs, hscope⟩ := ih
    obtain ⟨child, hc, hchild⟩ := hscope.below hw looks nonempty
    exact ⟨child, mem_walk_of_mem_children hs hc, hchild⟩

end Walked

end

end Fixture

end FixtureCheck
