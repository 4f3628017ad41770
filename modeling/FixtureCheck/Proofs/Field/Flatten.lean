import FixtureCheck.Proofs.Json.Number
import FixtureCheck.Proofs.Walk.Shape

/-!
# What becomes of the elements of nested arrays

`IsElement` says which elements the flattening of an array comes to: its items, and those of arrays that stand where
the type has a list. `elements` lists them from left to right, each array before its items (`mem_elements_iff`,
`pairwise_elementsFrom`). Each of them has exactly one fate (`existsUnique_fate`): it is a null that its type lets be,
an array whose items come after it, an item of the result, or an offender. The result has the items and one mismatch
for each offender, both in order (`flattenItems_eq`), and the text of a place tells where an offender stands
(`text_injective`). `flatten_accounts` gathers these.
-/

namespace FixtureCheck.Fixture

open GraphQL (Schema TypeRef)

/-- An element of nested arrays: the indexes that lead to it, the type that it should have, and its value. -/
structure Element where
  indexes : List Nat
  type : TypeRef
  value : Json

/-- What can become of an element. -/
inductive Fate where
  | allowedNull
  | descended
  | taken
  | offender
  deriving DecidableEq, Repr

namespace Element

/-- An element of an item as an element of the array. -/
def under (i : Nat) (e : Element) : Element := { e with indexes := i :: e.indexes }

/-- **What an element is like that has a fate**: an allowed null is null where its type lets it be; an array is
descended into where its type is a list; an item that is taken stands where its type is none, and is an object if the
type has parts; and an offender is null where that is not allowed, or no array where its type is a list, or no object
where its type has parts. -/
def Meets (schema : Schema) (e : Element) : Fate → Prop
  | .allowedNull => e.value = .null ∧ e.type.isNonNull = false
  | .descended => (∃ inner, e.value = .arr inner) ∧ ∃ next, e.type.nullable = .list next
  | .taken => e.value ≠ .null ∧ (∀ next, e.type.nullable ≠ .list next) ∧
      (schema.isComposite e.type.base = true → kindOf e.value = .object)
  | .offender =>
    e.value = .null ∧ e.type.isNonNull = true ∨
      e.value ≠ .null ∧ (∀ inner, e.value ≠ .arr inner) ∧ (∃ next, e.type.nullable = .list next) ∨
      e.value ≠ .null ∧ (∀ next, e.type.nullable ≠ .list next) ∧ schema.isComposite e.type.base = true ∧
        kindOf e.value ≠ .object

/-- The fate of an element. -/
def fate (schema : Schema) (e : Element) : Fate :=
  match e.value, e.type.nullable with
  | .null, _ => if e.type.isNonNull then .offender else .allowedNull
  | .arr _, .list _ => .descended
  | _, .list _ => .offender
  | .obj _, _ => .taken
  | _, _ => if schema.isComposite e.type.base then .offender else .taken

/-- The mismatch that an offender at a place is. -/
def mismatch (place : ItemPlace) (e : Element) : Mismatch :=
  match e.value, e.type.nullable with
  | .null, _ => .nullItem place
  | value, .list _ => .itemNotArray place (kindOf value)
  | value, _ => .itemNotObject place (kindOf value)

/-- The place of an element below the place of an array. -/
def placeIn (place : ItemPlace) (e : Element) : ItemPlace := { place with indexes := place.indexes ++ e.indexes }

/-- An element with its path, below the path of an array. -/
def locatedIn (path : Json.Path) (e : Element) : Located := ⟨path ++ e.indexes.map .index, e.value⟩

end Element

/-- **Does the flattening of an array come to an element**: is it an item, or an element of an item that is an array and
should be one? -/
inductive IsElement : TypeRef → List Json → Element → Prop where
  | item {item : TypeRef} {items : List Json} {i : Nat} {value : Json} (h : items[i]? = some value) :
      IsElement item items ⟨[i], item, value⟩
  | inner {item next : TypeRef} {items inner : List Json} {i : Nat} {e : Element} (h : items[i]? = some (.arr inner))
      (ht : item.nullable = .list next) (he : IsElement next inner e) : IsElement item items (e.under i)

/-- The elements of items of an array, the first of which has the index `i`. -/
def elementsFrom (item : TypeRef) (i : Nat) (items : List Json) : List Element :=
  match items with
  | [] => []
  | value :: rest =>
    let below : List Element :=
      match value, item.nullable with
      | .arr inner, .list next => elementsFrom next 0 inner
      | _, _ => []
    ⟨[i], item, value⟩ :: below.map (·.under i) ++ elementsFrom item (i + 1) rest
termination_by sizeOf items

/-- The elements that the flattening of an array comes to. -/
def elements (item : TypeRef) (items : List Json) : List Element := elementsFrom item 0 items

/-! ## Fates -/

section

variable {schema : Schema} {e : Element} {fate : Fate}

theorem meets_iff : e.Meets schema fate ↔ e.fate schema = fate := by
  obtain ⟨indexes, type, value⟩ := e
  unfold Element.fate Element.Meets
  dsimp only
  cases value with
  | null => cases hn : type.isNonNull <;> cases fate <;> simp
  | arr inner =>
    cases type.nullable with
    | list next => cases fate <;> simp
    | named name | nonNull inner => cases schema.isComposite type.base <;> cases fate <;> simp [kindOf]
  | obj entries => cases type.nullable <;> cases fate <;> simp [kindOf]
  | bool b | int n | float x | str s =>
    cases type.nullable with
    | list next => cases fate <;> simp
    | named name | nonNull inner => cases schema.isComposite type.base <;> cases fate <;> simp [kindOf]

/-- **Each element has exactly one fate.** -/
theorem existsUnique_fate (schema : Schema) (e : Element) : ∃! fate, e.Meets schema fate :=
  ⟨e.fate schema, meets_iff.2 rfl, fun _ h => (meets_iff.1 h).symm⟩

instance : Decidable (e.Meets schema fate) := decidable_of_iff _ meets_iff.symm

end

/-! ## Elements -/

section

variable {item : TypeRef} {i : Nat} {value : Json} {rest items : List Json} {e : Element}

/-- The elements within an item: those of an array that stands where the type has a list. -/
def elementsWithin (item : TypeRef) (value : Json) : List Element :=
  match value, item.nullable with
  | .arr inner, .list next => elements next inner
  | _, _ => []

theorem elementsFrom_cons : elementsFrom item i (value :: rest) =
    ⟨[i], item, value⟩ :: (elementsWithin item value).map (·.under i) ++ elementsFrom item (i + 1) rest := by
  rw [elementsFrom.eq_def]
  rfl

/-- The elements from an index on are those of the items, each under its own. -/
theorem mem_elementsFrom : ∀ {items : List Json} {i : Nat}, e ∈ elementsFrom item i items ↔
    ∃ j value, items[j]? = some value ∧
      (e = ⟨[i + j], item, value⟩ ∨ ∃ e' ∈ elementsWithin item value, e = e'.under (i + j))
  | [], i => by simp [elementsFrom]
  | value :: rest, i => by
    rw [elementsFrom_cons, List.cons_append, List.mem_cons, List.mem_append, List.mem_map, mem_elementsFrom]
    constructor
    · rintro (rfl | ⟨e', he', rfl⟩ | ⟨j, v, hj, h⟩)
      · exact ⟨0, value, rfl, .inl rfl⟩
      · exact ⟨0, value, rfl, .inr ⟨e', he', rfl⟩⟩
      · rw [Nat.add_assoc, Nat.add_comm 1 j] at h
        exact ⟨j + 1, v, hj, h⟩
    · rintro ⟨j, v, hj, h⟩
      cases j with
      | zero =>
        cases hj
        rcases h with rfl | ⟨e', he', rfl⟩
        · exact .inl rfl
        · exact .inr (.inl ⟨e', he', rfl⟩)
      | succ j =>
        rw [Nat.add_comm j 1, ← Nat.add_assoc] at h
        exact .inr (.inr ⟨j, v, hj, h⟩)

/-- **The elements that are listed are those that the flattening comes to.** -/
theorem mem_elements_iff {item : TypeRef} {items : List Json} {e : Element} :
    e ∈ elements item items ↔ IsElement item items e := by
  rw [elements, mem_elementsFrom]
  simp only [Nat.zero_add]
  constructor
  · rintro ⟨i, value, hi, rfl | ⟨e', he', rfl⟩⟩
    · exact .item hi
    · unfold elementsWithin at he'
      split at he'
      · rename_i inner next hnext
        have := List.sizeOf_lt_of_mem (List.mem_of_getElem? hi)
        exact .inner hi hnext (mem_elements_iff.1 he')
      · cases he'
  · intro h
    cases h with
    | item hi => exact ⟨_, _, hi, .inl rfl⟩
    | inner hi ht he =>
      have := List.sizeOf_lt_of_mem (List.mem_of_getElem? hi)
      refine ⟨_, _, hi, .inr ⟨_, ?_, rfl⟩⟩
      simpa only [elementsWithin, ht] using mem_elements_iff.2 he
termination_by sizeOf items
decreasing_by all_goals simp_all; omega

/-- The indexes of the elements from an index on begin at that index or later. -/
theorem exists_head_of_mem_elementsFrom (h : e ∈ elementsFrom item i items) :
    ∃ j rest, e.indexes = j :: rest ∧ i ≤ j := by
  obtain ⟨j, value, -, rfl | ⟨e', -, rfl⟩⟩ := mem_elementsFrom.1 h
  · exact ⟨i + j, [], rfl, Nat.le_add_right i j⟩
  · exact ⟨i + j, e'.indexes, rfl, Nat.le_add_right i j⟩

theorem indexes_ne_nil (h : e ∈ elements item items) : e.indexes ≠ [] := by
  obtain ⟨j, rest, hj, -⟩ := exists_head_of_mem_elementsFrom h
  rw [hj]
  exact List.cons_ne_nil _ _

/-- **The elements are listed from left to right**, each array before its items, and so each of them once. -/
theorem pairwise_elementsFrom (item : TypeRef) (i : Nat) (items : List Json) :
    (elementsFrom item i items).Pairwise fun d e => d.indexes < e.indexes :=
  match items with
  | [] => by
    rw [elementsFrom]
    exact .nil
  | value :: rest => by
    have hwithin : (elementsWithin item value).Pairwise fun d e => d.indexes < e.indexes := by
      unfold elementsWithin
      split
      · exact pairwise_elementsFrom _ 0 _
      · exact .nil
    have hne : ∀ e ∈ elementsWithin item value, e.indexes ≠ [] := by
      intro e he
      unfold elementsWithin at he
      split at he
      · exact indexes_ne_nil he
      · cases he
    rw [elementsFrom_cons, List.pairwise_append, List.pairwise_cons, List.pairwise_map]
    refine ⟨⟨?_, hwithin.imp fun h => List.cons_lt_cons_iff.2 (.inr ⟨rfl, h⟩)⟩, pairwise_elementsFrom item (i + 1) rest,
      ?_⟩
    · intro d hd
      obtain ⟨e, he, rfl⟩ := List.mem_map.1 hd
      obtain ⟨j, indexes, hj⟩ := List.exists_cons_of_ne_nil (hne e he)
      refine List.cons_lt_cons_iff.2 (.inr ⟨rfl, ?_⟩)
      rw [hj]
      exact List.nil_lt_cons j indexes
    · -- what comes of the first item begins at its index, and the rest after it
      intro d hd e he
      obtain ⟨j, indexes, hj, hle⟩ := exists_head_of_mem_elementsFrom he
      obtain ⟨indexes', hd⟩ : ∃ indexes', d.indexes = i :: indexes' := by
        rcases List.mem_cons.1 hd with rfl | hd
        · exact ⟨[], rfl⟩
        · obtain ⟨d', -, rfl⟩ := List.mem_map.1 hd
          exact ⟨d'.indexes, rfl⟩
      rw [hj, hd]
      exact List.cons_lt_cons_iff.2 (.inl hle)
termination_by sizeOf items

/-- **Below an element that is not descended into, nothing is come to.** -/
theorem eq_or_descended {d e : Element} (schema : Schema) (hd : IsElement item items d) (he : IsElement item items e)
    (h : d.indexes <+: e.indexes) : d = e ∨ d.Meets schema .descended := by
  induction hd generalizing e with
  | @item item items i value hi =>
    cases he with
    | item hj =>
      have hij := (List.cons_prefix_cons.1 h).1
      subst hij
      rw [hi] at hj
      cases hj
      exact .inl rfl
    | inner hj ht he =>
      have hij := (List.cons_prefix_cons.1 h).1
      subst hij
      rw [hi] at hj
      cases hj
      exact .inr ⟨⟨_, rfl⟩, _, ht⟩
  | @inner item next items inner i d hi ht hd ih =>
    cases he with
    | item hj =>
      have hnil := List.prefix_nil.1 (List.cons_prefix_cons.1 h).2
      exact absurd hnil (indexes_ne_nil (mem_elements_iff.2 hd))
    | inner hj ht' he =>
      obtain ⟨hij, hprefix⟩ := List.cons_prefix_cons.1 h
      subst hij
      rw [hi] at hj
      cases hj
      rw [ht] at ht'
      cases ht'
      exact (ih he hprefix).imp (congrArg _) id

end

/-! ## Results -/

section

variable {schema : Schema} {item : TypeRef} {place : ItemPlace} {path : Json.Path} {i : Nat} {value : Json}
  {items : List Json}

/-- What elements amount to: the items that are taken, and the mismatches of the offenders. -/
def gather (schema : Schema) (place : ItemPlace) (path : Json.Path) (es : List Element) : FieldResult where
  children := (es.filter fun e => e.Meets schema .taken).map (·.locatedIn path)
  errors := (es.filter fun e => e.Meets schema .offender).map fun e => e.mismatch (e.placeIn place)

theorem gather_append (es es' : List Element) :
    gather schema place path (es ++ es') = (gather schema place path es).append (gather schema place path es') := by
  simp [gather, FieldResult.append]

theorem gather_cons (e : Element) (es : List Element) :
    gather schema place path (e :: es) = (gather schema place path [e]).append (gather schema place path es) :=
  gather_append [e] es

theorem gather_under (es : List Element) : gather schema place path (es.map (·.under i)) =
    gather schema (place.item i) (path ++ [.index i]) es := by
  have hmeets : ∀ (e : Element) fate, (e.under i).Meets schema fate ↔ e.Meets schema fate := fun _ _ => Iff.rfl
  simp only [gather, List.filter_map, List.map_map, Function.comp_def, hmeets]
  simp [Element.under, Element.locatedIn, Element.placeIn, Element.mismatch, ItemPlace.item]

/-- What comes of an element alone goes by its fate. -/
theorem gather_singleton (e : Element) : gather schema place path [e] =
    match e.fate schema with
    | .taken => .child (e.locatedIn path)
    | .offender => .error (e.mismatch (e.placeIn place))
    | .allowedNull | .descended => {} := by
  simp only [gather, List.filter_singleton, meets_iff]
  cases e.fate schema <;> rfl

/-- What comes of an item is what comes of the elements that it leads to. -/
theorem flattenItem_eq (hinner : ∀ next inner, value = .arr inner →
      flattenItems schema next (place.item i) (path ++ [.index i]) 0 inner =
        gather schema (place.item i) (path ++ [.index i]) (elements next inner)) :
    flattenItem schema item (place.item i) (path ++ [.index i]) value =
      gather schema place path (⟨[i], item, value⟩ :: (elementsWithin item value).map (·.under i)) := by
  rw [gather_cons, gather_under, gather_singleton]
  cases value with
  | null =>
    simp only [flattenItem, Element.fate, elementsWithin]
    split <;> rfl
  | arr inner =>
    cases ht : item.nullable with
    | list next =>
      simp only [flattenItem, Element.fate, elementsWithin, ht]
      rw [hinner next inner rfl]
      rfl
    | named name | nonNull inner =>
      simp only [flattenItem, Element.fate, elementsWithin, ht]
      split <;> simp [gather, FieldResult.append, FieldResult.error, FieldResult.child, Element.mismatch,
        Element.placeIn, Element.locatedIn, ItemPlace.item, ht]
  | obj entries =>
    cases ht : item.nullable <;> simp [flattenItem, Element.fate, elementsWithin, ht, gather, FieldResult.append,
      FieldResult.error, FieldResult.child, Element.mismatch, Element.placeIn, Element.locatedIn, ItemPlace.item]
  | bool b | int n | float x | str s =>
    cases ht : item.nullable with
    | list next =>
      simp [flattenItem, Element.fate, elementsWithin, ht, gather, FieldResult.append, FieldResult.error,
        Element.mismatch, Element.placeIn, ItemPlace.item]
    | named name | nonNull inner =>
      simp only [flattenItem, Element.fate, elementsWithin, ht]
      split <;> simp [gather, FieldResult.append, FieldResult.error, FieldResult.child, Element.mismatch,
        Element.placeIn, Element.locatedIn, ItemPlace.item, ht]

/-- **What comes of an array is what its elements amount to.** -/
theorem flattenItems_eq (item : TypeRef) (place : ItemPlace) (path : Json.Path) (i : Nat) (items : List Json) :
    flattenItems schema item place path i items = gather schema place path (elementsFrom item i items) :=
  match items with
  | [] => by
    rw [flattenItems, elementsFrom]
    rfl
  | value :: rest => by
    rw [flattenItems_cons, elementsFrom_cons, gather_append, flattenItems_eq item place path (i + 1) rest]
    congr 1
    refine flattenItem_eq fun next inner hvalue => ?_
    subst hvalue
    exact flattenItems_eq next (place.item i) (path ++ [.index i]) 0 inner
termination_by sizeOf items

end

/-! ## Places in words -/

/-- Indexes in brackets, as they stand in the text of a place. -/
def bracketed (indexes : List Nat) : List Char := indexes.flatMap fun i => '[' :: (Nat.toDigits 10 i ++ [']'])

theorem toList_text (key : String) (indexes : List Nat) :
    (⟨key, indexes⟩ : ItemPlace).text.toList = key.toList ++ bracketed indexes := by
  simp only [ItemPlace.text, bracketed, String.toList_append, String.toList_join, List.flatMap_map]
  simp [ToString.toString, Nat.toList_repr]

/-- Indexes can be read off their text: an index ends where its digits do. -/
theorem bracketed_injective : ∀ {indexes indexes' : List Nat}, bracketed indexes = bracketed indexes' →
    indexes = indexes'
  | [], [], _ => rfl
  | [], j :: rest', h => by simp [bracketed] at h
  | i :: rest, [], h => by simp [bracketed] at h
  | i :: rest, j :: rest', h => by
    have hsplit : Nat.toDigits 10 i ++ ']' :: bracketed rest = Nat.toDigits 10 j ++ ']' :: bracketed rest' := by
      simpa [bracketed] using h
    have hspan : ∀ n chars, Json.spanDigits (Nat.toDigits 10 n ++ ']' :: chars) = (Nat.toDigits 10 n, ']' :: chars) :=
      fun n chars => Json.spanDigits_append (Json.allDigits_toDigits n) (by simp)
    have hsame := congrArg Json.spanDigits hsplit
    rw [hspan, hspan] at hsame
    obtain ⟨hdigits, hrest⟩ := Prod.mk.inj hsame
    have hindex : i = j := by
      rw [← Json.digitsValue_toDigits i, hdigits, Json.digitsValue_toDigits]
    rw [hindex, bracketed_injective (List.cons.inj hrest).2]

/-- **The text of a place tells its indexes** where the text of the array is known. -/
theorem text_injective {key : String} {indexes indexes' : List Nat}
    (h : (⟨key, indexes⟩ : ItemPlace).text = (⟨key, indexes'⟩ : ItemPlace).text) : indexes = indexes' := by
  have hchars := congrArg String.toList h
  rw [toList_text, toList_text] at hchars
  exact bracketed_injective (List.append_cancel_left hchars)

/-! ## Accounts of arrays -/

/-- **Flattening accounts for every element once.** The elements that it comes to are listed from left to right. Each
has exactly one fate, and only those that are descended into have others below them. The children are the elements that
are taken, and there is one mismatch for each offender, both from left to right; the mismatch has the place of the
offender, and no two elements have places with the same text. -/
theorem flatten_accounts (schema : Schema) (item : TypeRef) (place : ItemPlace) (path : Json.Path) (items : List Json) :
    (∀ e, e ∈ elements item items ↔ IsElement item items e) ∧
    (elements item items).Pairwise (fun d e => d.indexes < e.indexes) ∧
    (∀ e ∈ elements item items, ∃! fate, e.Meets schema fate) ∧
    (∀ d ∈ elements item items, ∀ e ∈ elements item items, d.indexes <+: e.indexes →
      d = e ∨ d.Meets schema .descended) ∧
    (flatten schema item place path items).children =
      ((elements item items).filter fun e => e.Meets schema .taken).map (·.locatedIn path) ∧
    (flatten schema item place path items).errors =
      ((elements item items).filter fun e => e.Meets schema .offender).map (fun e => e.mismatch (e.placeIn place)) ∧
    ∀ d ∈ elements item items, ∀ e ∈ elements item items, (d.placeIn place).text = (e.placeIn place).text → d = e := by
  have hsorted := pairwise_elementsFrom item 0 items
  refine ⟨fun e => mem_elements_iff, hsorted, fun e _ => existsUnique_fate schema e, ?_, ?_, ?_, ?_⟩
  · exact fun d hd e he => eq_or_descended schema (mem_elements_iff.1 hd) (mem_elements_iff.1 he)
  · rw [flatten, flattenItems_eq]
    rfl
  · rw [flatten, flattenItems_eq]
    rfl
  · intro d hd e he htext
    have hindexes : d.indexes = e.indexes := List.append_cancel_left (text_injective htext)
    have hnodup : ((elements item items).map (·.indexes)).Nodup := by
      refine List.pairwise_map.2 (hsorted.imp ?_)
      intro a b hlt heq
      rw [heq] at hlt
      exact List.lt_irrefl _ hlt
    exact List.inj_on_of_nodup_map hnodup hd he hindexes

end FixtureCheck.Fixture
