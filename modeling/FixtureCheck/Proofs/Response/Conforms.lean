import FixtureCheck.Proofs.Json.Lookup
import FixtureCheck.Proofs.Walk.Reach
import FixtureCheck.Proofs.Walk.Place

/-!
# The shape of a response

`Conforms` says, without a walk, which values answer selection sets. An object has a runtime type: the one that it
names, or if it names none, any that it can have. The sets collect fields for it, those whose type conditions the
runtime type meets. The object has exactly the keys of the collected fields, with values of their types, and the objects
in these values answer the sets below all collected fields of their key together.
-/

namespace FixtureCheck.Fixture

open GraphQL (Schema Field Selection)

/-- Selection sets that apply to an object, each with the type that it is on. -/
abbrev Sets := String → List Selection → Prop

/-- Has an object, where the type `declared` is expected, the runtime type `type`? -/
def HasRuntimeType (schema : Schema) (K declared : String) (o : Json) (type : String) : Prop :=
  match typename? o (some K) with
  | some name => type = name
  | none => type ∈ schema.possibleTypes declared

/-- Do the type conditions around a field select it for an object? -/
def Met.IsCollected (schema : Schema) (K declared : String) (o : Json) (m : Met) : Prop :=
  ∃ type, HasRuntimeType schema K declared o type ∧ ∀ c ∈ m.conditions, type ∈ schema.possibleTypes c

/-- Do sets collect a field for an object, from one on the type `declared`? -/
def Collects (schema : Schema) (K : String) (sets : Sets) (o : Json) (declared : String) (m : Met) : Prop :=
  ∃ selections, sets declared selections ∧ m ∈ metIn [] selections ∧ m.IsCollected schema K declared o

/-- The sets below the fields that sets collect for an object under a key. -/
def setsBelow (schema : Schema) (K : String) (sets : Sets) (o : Json) (k : String) : Sets := fun type selections =>
  ∃ declared m definition, Collects schema K sets o declared m ∧ m.field.key = k ∧ m.selections ≠ [] ∧
    schema.fieldOf? (some (m.type declared)) m.field.name = some definition ∧
    type = definition.type.base ∧ selections = m.selections

/-- Has an object the keys that sets ask for, and no others, with values of the types of the fields? -/
structure Agrees (schema : Schema) (K : String) (sets : Sets) (o : Json) : Prop where
  object : kindOf o = .object
  keys : ∀ k value, o.field? k = some value → ∃ declared m, Collects schema K sets o declared m ∧ m.field.key = k
  fields : ∀ declared m, Collects schema K sets o declared m → ∃ definition value,
    schema.fieldOf? (some (m.type declared)) m.field.name = some definition ∧
      o.field? m.field.key = some value ∧ Fits schema definition.type value

/-- Is a value an object in arrays, at some depth, that make up another one? -/
def IsObjectIn (inner value : Json) : Prop :=
  kindOf inner = .object ∧ ∃ q : Json.Path, (∀ s ∈ q, s.isIndex = true) ∧ value.get? q = some inner

/-- **Does an object answer selection sets?** -/
inductive Conforms (schema : Schema) (K : String) : Sets → Json → Prop where
  | intro {sets : Sets} {o : Json} (agrees : Agrees schema K sets o)
      (below : ∀ k value inner type selections, o.field? k = some value → IsObjectIn inner value →
        setsBelow schema K sets o k type selections → Conforms schema K (setsBelow schema K sets o k) inner) :
      Conforms schema K sets o

theorem Conforms.agrees {schema : Schema} {K : String} {sets : Sets} {o : Json} : Conforms schema K sets o →
    Agrees schema K sets o
  | .intro agrees _ => agrees

/-! ## Queries whose objects tell their types -/

mutual

/-- The fields in selections in a row, at any depth. -/
def fieldsIn : List Selection → List Field
  | [] => []
  | selection :: rest => fieldsAt selection ++ fieldsIn rest

/-- The fields in a selection, at any depth. -/
def fieldsAt : Selection → List Field
  | .field f selections => f :: fieldsIn selections
  | .spread .. => []
  | .inline _ _ selections => fieldsIn selections

end

/-- The selection set of a field of type `declared` and the sets below it, each with the type of its field. -/
inductive SetBelow (schema : Schema) (declared : String) (top : List Selection) : String → List Selection → Prop where
  | here : SetBelow schema declared top declared top
  | field {type : String} {selections : List Selection} {m : Met} {definition : GraphQL.OutputField}
      (outer : SetBelow schema declared top type selections) (met : m ∈ metIn [] selections)
      (known : schema.fieldOf? (some (m.type type)) m.field.name = some definition) (nonempty : m.selections ≠ []) :
      SetBelow schema declared top definition.type.base m.selections

/-- **Do objects tell their types under the key `K`, wherever types matter?** All `__typename` fields have this key, and
a set without one has only type conditions that each type of its field meets. -/
structure IsDiscriminated (schema : Schema) (K declared : String) (top : List Selection) : Prop where
  keys : ∀ f ∈ fieldsIn top, f.name = "__typename" → f.key = K
  told : ∀ type selections, SetBelow schema declared top type selections → (typenameKey? selections).isSome ∨
    ∀ m ∈ metIn [] selections, ∀ c ∈ m.conditions, ∀ name ∈ schema.possibleTypes type, name ∈ schema.possibleTypes c

/-- Is each text that an object holds under the key `K` the name of a type of every field through which a walk reaches
the object? -/
def NamesPossibleTypes (schema : Schema) (K : String) (top : List Selection) (start : Frame) : Prop :=
  ∀ selections frame, Reaches schema top start selections frame → ∀ v ∈ frame.values, ∀ text,
    v.value.field? K = some (.str text) → text ∈ schema.possibleTypes frame.type

/-! ## Fields in sets -/

mutual

/-- The fields in the selections of a field that is met in a set are fields in the set. -/
theorem mem_fieldsIn_of_mem_metIn {f : Field} {conditions : List String} {m : Met} (hf : f ∈ fieldsIn m.selections) :
    ∀ {selections : List Selection}, m ∈ metIn conditions selections → f ∈ fieldsIn selections
  | [], hm => by simp [metIn] at hm
  | selection :: rest, hm => by
    rw [metIn, List.mem_append] at hm
    rw [fieldsIn, List.mem_append]
    rcases hm with hm | hm
    · exact .inl (mem_fieldsAt_of_mem_metAt hf hm)
    · exact .inr (mem_fieldsIn_of_mem_metIn hf hm)

theorem mem_fieldsAt_of_mem_metAt {f : Field} {conditions : List String} {m : Met} (hf : f ∈ fieldsIn m.selections) :
    ∀ {selection : Selection}, m ∈ metAt conditions selection → f ∈ fieldsAt selection
  | .field f' selections, hm => by
    rw [metAt, List.mem_singleton] at hm
    subst hm
    rw [fieldsAt]
    exact List.mem_cons_of_mem _ hf
  | .spread .., hm => by simp [metAt] at hm
  | .inline condition directives selections, hm => by
    rw [metAt] at hm
    rw [fieldsAt]
    exact mem_fieldsIn_of_mem_metIn hf hm

end

theorem mem_fieldsIn_of_mem {f : Field} {sub : List Selection} : ∀ {selections : List Selection},
    .field f sub ∈ selections → f ∈ fieldsIn selections
  | selection :: rest, h => by
    rw [fieldsIn, List.mem_append]
    rcases List.mem_cons.1 h with rfl | h
    · rw [fieldsAt]
      exact .inl List.mem_cons_self
    · exact .inr (mem_fieldsIn_of_mem h)

/-- A field that stands directly in a set is met in it under the conditions around the set. -/
theorem mem_metIn_of_mem {f : Field} {sub : List Selection} {conditions : List String} :
    ∀ {selections : List Selection}, .field f sub ∈ selections → ⟨conditions, f, sub⟩ ∈ metIn conditions selections
  | selection :: rest, h => by
    rw [metIn, List.mem_append]
    rcases List.mem_cons.1 h with rfl | h
    · rw [metAt]
      exact .inl (List.mem_singleton_self _)
    · exact .inr (mem_metIn_of_mem h)

/-! ## Objects in values -/

/-- The objects in an item of an array are objects in the items. -/
theorem mem_objectsAmong_of_getElem? {path : Json.Path} {o : Located} {item : Json} :
    ∀ {items : List Json} {start i : Nat}, items[i]? = some item →
      o ∈ objectsAt (path ++ [.index (start + i)]) item → o ∈ objectsAmong path start items
  | first :: rest, start, 0, hi, ho => by
    rw [objectsAmong, List.mem_append]
    cases hi
    exact .inl ho
  | first :: rest, start, i + 1, hi, ho => by
    rw [objectsAmong, List.mem_append]
    have hindex : start + (i + 1) = start + 1 + i := by omega
    rw [hindex] at ho
    exact .inr (mem_objectsAmong_of_getElem? hi ho)

/-- The objects in a value are listed with their places. -/
theorem mem_objectsAt_of_get? {inner : Json} (hk : kindOf inner = .object) : ∀ {q path : Json.Path} {value : Json},
    (∀ s ∈ q, s.isIndex = true) → value.get? q = some inner → ⟨path ++ q, inner⟩ ∈ objectsAt path value
  | [], path, value, _, hg => by
    rw [Json.get?] at hg
    cases hg
    cases inner with
    | obj entries => simp [objectsAt]
    | null | bool b | int n | float x | str s | arr items => cases hk
  | .key name :: q, path, value, hq, _ => absurd (hq _ List.mem_cons_self) Bool.false_ne_true
  | .index i :: q, path, value, hq, hg => by
    cases value with
    | arr items =>
      rw [Json.get?] at hg
      obtain ⟨item, hi, hg⟩ := Option.bind_eq_some_iff.1 hg
      have hitem : ⟨path ++ [.index i] ++ q, inner⟩ ∈ objectsAt (path ++ [.index i]) item :=
        mem_objectsAt_of_get? hk (fun s hs => hq s (List.mem_cons_of_mem _ hs)) hg
      rw [objectsAt]
      refine mem_objectsAmong_of_getElem? hi ?_
      simpa using hitem
    | null | bool b | int n | float x | str s | obj entries => simp [Json.get?] at hg

/-- An object in a value is one that is listed. -/
theorem isObjectIn_iff {inner value : Json} {path : Json.Path} :
    IsObjectIn inner value ↔ ∃ o ∈ objectsAt path value, o.value = inner := by
  constructor
  · rintro ⟨hk, q, hq, hg⟩
    exact ⟨_, mem_objectsAt_of_get? hk hq hg, rfl⟩
  · rintro ⟨o, ho, rfl⟩
    obtain ⟨hk, q, hq, -, hg⟩ := mem_objectsAt ho
    exact ⟨hk, q, hq, hg⟩

/-- The values at positions in a value are no larger than the value. -/
theorem sizeOf_le_of_get? {inner : Json} : ∀ {q : Json.Path} {value : Json}, value.get? q = some inner →
    sizeOf inner ≤ sizeOf value
  | [], value, hg => by
    rw [Json.get?] at hg
    cases hg
    exact Nat.le_refl _
  | .key name :: q, value, hg => by
    cases value with
    | obj entries =>
      rw [Json.get?] at hg
      obtain ⟨v, hv, hg⟩ := Option.bind_eq_some_iff.1 hg
      have hlt := Json.sizeOf_lt_of_lookup hv
      have hle := sizeOf_le_of_get? hg
      omega
    | null | bool b | int n | float x | str s | arr items => simp [Json.get?] at hg
  | .index i :: q, value, hg => by
    cases value with
    | arr items =>
      rw [Json.get?] at hg
      obtain ⟨item, hi, hg⟩ := Option.bind_eq_some_iff.1 hg
      have hlt := List.sizeOf_lt_of_mem (List.mem_of_getElem? hi)
      have hle := sizeOf_le_of_get? hg
      simp only [Json.arr.sizeOf_spec]
      omega
    | null | bool b | int n | float x | str s | obj entries => simp [Json.get?] at hg

/-- The objects in a value under a key of an object are smaller than the object. -/
theorem sizeOf_lt_of_field? {o value inner : Json} {k : String} (h : o.field? k = some value)
    (hi : IsObjectIn inner value) : sizeOf inner < sizeOf o := by
  obtain ⟨-, q, -, hg⟩ := hi
  have hle := sizeOf_le_of_get? hg
  cases o with
  | obj entries =>
    have hlt := Json.sizeOf_lt_of_lookup (h : Json.lookup entries k = some value)
    omega
  | null | bool b | int n | float x | str s | arr items => simp [Json.field?] at h

end FixtureCheck.Fixture
