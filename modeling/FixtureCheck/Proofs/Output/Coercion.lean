import FixtureCheck.GraphQL.Coercion
import FixtureCheck.Proofs.Json.Lookup
import FixtureCheck.Proofs.Schema.Inputs

/-!
# Coercion of input values

`Reports` says what coercion of a value to an input type reports: each failure with the position that it is about and
the value that fails there. The misfits of a value are these failures (`mem_misfitsAt_iff`). `Satisfies` says what the
values of an input type are, without speaking of failures: no other values are without misfits
(`misfitsAt_eq_nil_iff_satisfies`).
-/

namespace FixtureCheck.GraphQL

/-! ## Input objects -/

namespace InputValue

variable (entries : List (String × Json)) (f : InputValue)

/-- Is a field of an input object given, or filled with its default? -/
def isFilled : Bool := (Json.lookup entries f.name).isSome || f.default?.isSome

/-- Is a field given as null, where it may be, or filled with null? -/
def isNullIn : Bool :=
  match Json.lookup entries f.name, f.default? with
  | some v, _ => isNullValue v && !f.type.isNonNull
  | none, some d => d.isNull
  | none, none => false

end InputValue

section

variable {schema : Schema} {path : Json.Path} {type : TypeRef} {value : Json} {name : String}
  {fields : List InputValue} {isOneOf : Bool} {entries : List (String × Json)}

theorem isNullValue_iff : isNullValue value = true ↔ value = .null := by
  cases value <;> simp [isNullValue]

theorem isNullIn_iff {f : InputValue} : f.isNullIn entries = true ↔
    Json.lookup entries f.name = some .null ∧ f.type.isNonNull = false ∨
      Json.lookup entries f.name = none ∧ f.default? = some .null := by
  have hliteral : ∀ d : Value, d.isNull = true ↔ d = .null := by
    intro d
    cases d <;> simp [Value.isNull]
  unfold InputValue.isNullIn
  cases Json.lookup entries f.name with
  | some v => simp [isNullValue_iff]
  | none => cases f.default? <;> simp [hliteral]

/-- The field that is filled is one of the fields. -/
theorem mem_of_filled {f : InputValue} (h : fields.filter (·.isFilled entries) = [f]) : f ∈ fields := by
  have hmem : f ∈ fields.filter (·.isFilled entries) := by
    rw [h]
    exact List.mem_singleton_self f
  exact (List.mem_filter.1 hmem).1

/-- The given fields are those that are filled, in order. -/
theorem givenFields_eq (fields : List InputValue) (entries : List (String × Json)) : givenFields fields entries =
    (fields.filter (·.isFilled entries)).map fun f => (f.name, f.isNullIn entries) := by
  unfold givenFields
  induction fields with
  | nil => rfl
  | cons f rest ih =>
    cases hgiven : Json.lookup entries f.name with
    | some v => simp [InputValue.isFilled, InputValue.isNullIn, hgiven, ih]
    | none => cases hdefault : f.default? <;> simp [InputValue.isFilled, InputValue.isNullIn, hgiven, hdefault, ih]

/-- The misfits of an input object are those of the fields that are given, the fields that lack, and those of the object
as a whole. -/
theorem misfitsAt_input (known : schema.details? name = some (.input fields isOneOf)) :
    misfitsAt schema path (.named name) (.obj entries) =
      (fields.flatMap fun f =>
        match Json.lookup entries f.name with
        | some v => misfitsAt schema (path ++ [.key f.name]) f.type v
        | none => if f.isRequired then [⟨path, .missingField f.name f.type⟩] else []) ++
        objectMisfits path name fields isOneOf entries := by
  have hlookup : ∀ key, Json.lookup entries key = (entries.attach.find? (·.1.1 == key)).map (·.1.2) := by
    intro key
    calc (entries.find? (·.1 == key)).map (·.2)
        = ((entries.attach.map Subtype.val).find? (·.1 == key)).map (·.2) := by rw [List.attach_map_subtype_val]
      _ = (entries.attach.find? (·.1.1 == key)).map (·.1.2) := by rw [List.find?_map, Option.map_map]; rfl
  rw [misfitsAt]
  simp only [known]
  congr 2
  funext f
  rw [hlookup]
  cases entries.attach.find? (·.1.1 == f.name) <;> rfl

theorem mem_misfitsAt_arr {items : List Json} {m : Misfit} :
    m ∈ misfitsAt schema path (.list type) (.arr items) ↔
      ∃ i item, items[i]? = some item ∧ m ∈ misfitsAt schema (path ++ [.index i]) type item := by
  rw [misfitsAt, List.mem_flatMap]
  constructor
  · rintro ⟨⟨⟨item, hitem⟩, i⟩, hi, hm⟩
    rw [List.mem_zipIdx_iff_getElem?, List.getElem?_attach] at hi
    have hi : items[i]? = some item ∧ item ∈ items := by simpa using hi
    exact ⟨i, item, hi.1, hm⟩
  · rintro ⟨i, item, hi, hm⟩
    refine ⟨(⟨item, List.mem_of_getElem? hi⟩, i), ?_, hm⟩
    rw [List.mem_zipIdx_iff_getElem?, List.getElem?_attach]
    simp [hi]

theorem misfitsAt_alone (given : value ≠ .null) (single : ∀ items, value ≠ .arr items) :
    misfitsAt schema path (.list type) value = misfitsAt schema path type value := by
  rw [misfitsAt]
  · exact given
  · exact single

theorem misfitsAt_leaf (given : value ≠ .null)
    (plain : ∀ entries fields isOneOf, value = .obj entries → schema.details? name ≠ some (.input fields isOneOf)) :
    misfitsAt schema path (.named name) value = (leafCause? schema name value).toList.map (⟨path, ·⟩) := by
  cases value with
  | null => exact absurd rfl given
  | obj entries =>
    rw [misfitsAt]
    split
    · rename_i fields isOneOf known
      exact absurd known (plain entries fields isOneOf rfl)
    · rfl
  | bool b | int n | float x | str s | arr items =>
    rw [misfitsAt]
    all_goals simp

theorem mem_objectMisfits_iff {m : Misfit} : m ∈ objectMisfits path name fields isOneOf entries ↔
    (∃ key v, (key, v) ∈ entries ∧ key ∉ fields.map (·.name) ∧
      m = ⟨path, .unknownField key name (fields.map (·.name))⟩) ∨
    isOneOf = true ∧ (((fields.filter (·.isFilled entries)).length ≠ 1 ∧ m = ⟨path, .notOneField name⟩) ∨
      ∃ f, fields.filter (·.isFilled entries) = [f] ∧ f.isNullIn entries = true ∧
        m = ⟨path ++ [.key f.name], .nullField f.name⟩) := by
  have hunknown : (m ∈ entries.filterMap fun entry =>
      if (fields.map (·.name)).contains entry.1 then none
      else some ⟨path, .unknownField entry.1 name (fields.map (·.name))⟩) ↔
      ∃ key v, (key, v) ∈ entries ∧ key ∉ fields.map (·.name) ∧
        m = ⟨path, .unknownField key name (fields.map (·.name))⟩ := by
    rw [List.mem_filterMap]
    constructor
    · rintro ⟨⟨key, v⟩, hmem, hm⟩
      simp only [Option.ite_none_left_eq_some, Option.some.injEq] at hm
      exact ⟨key, v, hmem, by simpa using hm.1, hm.2.symm⟩
    · rintro ⟨key, v, hmem, hnew, rfl⟩
      exact ⟨(key, v), hmem, if_neg (by simpa using hnew)⟩
  rw [objectMisfits, List.mem_append]
  refine or_congr hunknown ?_
  rw [givenFields_eq]
  cases isOneOf with
  | false => simp
  | true =>
    generalize fields.filter (·.isFilled entries) = filled
    rcases filled with _ | ⟨f, _ | ⟨f', rest⟩⟩
    · simp
    · cases hnull : f.isNullIn entries <;> simp [hnull]
    · simp

end

/-! ## Reports -/

/-- **What coercion reports** of a value and an input type: the position in the value, the cause, and the value that
fails there. Items of a list are at their index, fields at their name, and a value that stands alone where a list is
due stays where it is. What lacks in an object, or should not be in it, is reported of the object. -/
inductive Reports (schema : Schema) : TypeRef → Json → Json.Path → MisfitCause → Json → Prop where
  | null (t : TypeRef) : Reports schema (.nonNull t) .null [] (.isNull (.nonNull t)) .null
  | nonNull {t : TypeRef} {v w : Json} {p : Json.Path} {c : MisfitCause} (given : v ≠ .null)
      (inside : Reports schema t v p c w) : Reports schema (.nonNull t) v p c w
  | item {t : TypeRef} {items : List Json} {i : Nat} {item w : Json} {p : Json.Path} {c : MisfitCause}
      (found : items[i]? = some item) (inside : Reports schema t item p c w) :
      Reports schema (.list t) (.arr items) (.index i :: p) c w
  | alone {t : TypeRef} {v w : Json} {p : Json.Path} {c : MisfitCause} (given : v ≠ .null)
      (single : ∀ items, v ≠ .arr items) (inside : Reports schema t v p c w) : Reports schema (.list t) v p c w
  | field {name : String} {fields : List InputValue} {isOneOf : Bool} {entries : List (String × Json)}
      {f : InputValue} {v w : Json} {p : Json.Path} {c : MisfitCause}
      (known : schema.details? name = some (.input fields isOneOf)) (mem : f ∈ fields)
      (found : Json.lookup entries f.name = some v) (inside : Reports schema f.type v p c w) :
      Reports schema (.named name) (.obj entries) (.key f.name :: p) c w
  | missing {name : String} {fields : List InputValue} {isOneOf : Bool} {entries : List (String × Json)}
      {f : InputValue} (known : schema.details? name = some (.input fields isOneOf)) (mem : f ∈ fields)
      (absent : Json.lookup entries f.name = none) (required : f.isRequired = true) :
      Reports schema (.named name) (.obj entries) [] (.missingField f.name f.type) (.obj entries)
  | unknown {name key : String} {fields : List InputValue} {isOneOf : Bool} {entries : List (String × Json)}
      {v : Json} (known : schema.details? name = some (.input fields isOneOf)) (mem : (key, v) ∈ entries)
      (new : key ∉ fields.map (·.name)) :
      Reports schema (.named name) (.obj entries) [] (.unknownField key name (fields.map (·.name))) (.obj entries)
  | choice {name : String} {fields : List InputValue} {entries : List (String × Json)}
      (known : schema.details? name = some (.input fields true))
      (count : (fields.filter (·.isFilled entries)).length ≠ 1) :
      Reports schema (.named name) (.obj entries) [] (.notOneField name) (.obj entries)
  | nullGiven {name : String} {fields : List InputValue} {entries : List (String × Json)} {f : InputValue}
      (known : schema.details? name = some (.input fields true)) (only : fields.filter (·.isFilled entries) = [f])
      (given : Json.lookup entries f.name = some .null) (nullable : f.type.isNonNull = false) :
      Reports schema (.named name) (.obj entries) [.key f.name] (.nullField f.name) .null
  | nullFilled {name : String} {fields : List InputValue} {entries : List (String × Json)} {f : InputValue}
      (known : schema.details? name = some (.input fields true)) (only : fields.filter (·.isFilled entries) = [f])
      (absent : Json.lookup entries f.name = none) (default : f.default? = some .null) :
      Reports schema (.named name) (.obj entries) [.key f.name] (.nullField f.name) .null
  | notObject {name : String} {fields : List InputValue} {isOneOf : Bool} {v : Json}
      (known : schema.details? name = some (.input fields isOneOf)) (given : v ≠ .null)
      (other : ∀ entries, v ≠ .obj entries) : Reports schema (.named name) v [] (.notObject name) v
  | leaf {name : String} {v : Json} {c : MisfitCause} (given : v ≠ .null) (leaf : schema.isLeaf name = true)
      (cause : leafCause? schema name v = some c) : Reports schema (.named name) v [] c v

section

variable {schema : Schema} {path : Json.Path} {type : TypeRef} {value : Json} {name : String}
  {fields : List InputValue} {isOneOf : Bool} {entries : List (String × Json)} {m : Misfit}

/-- Does coercion report a misfit, at its place below a path? -/
def IsReported (schema : Schema) (path : Json.Path) (type : TypeRef) (value : Json) (m : Misfit) : Prop :=
  ∃ p c w, Reports schema type value p c w ∧ m = ⟨path ++ p, c⟩

theorem isReported_nonNull (given : value ≠ .null) :
    IsReported schema path (.nonNull type) value m ↔ IsReported schema path type value m := by
  constructor
  · rintro ⟨p, c, w, h, rfl⟩
    cases h with
    | null => exact absurd rfl given
    | nonNull _ inside => exact ⟨p, c, w, inside, rfl⟩
  · rintro ⟨p, c, w, h, rfl⟩
    exact ⟨p, c, w, .nonNull given h, rfl⟩

theorem isReported_arr {items : List Json} : IsReported schema path (.list type) (.arr items) m ↔
    ∃ i item, items[i]? = some item ∧ IsReported schema (path ++ [.index i]) type item m := by
  constructor
  · rintro ⟨p, c, w, h, rfl⟩
    cases h with
    | @item _ _ i item _ p _ found inside => exact ⟨i, item, found, p, c, w, inside, by simp⟩
    | alone _ single _ => exact absurd rfl (single items)
  · rintro ⟨i, item, found, p, c, w, h, rfl⟩
    exact ⟨.index i :: p, c, w, .item found h, by simp⟩

theorem isReported_alone (given : value ≠ .null) (single : ∀ items, value ≠ .arr items) :
    IsReported schema path (.list type) value m ↔ IsReported schema path type value m := by
  constructor
  · rintro ⟨p, c, w, h, rfl⟩
    cases h with
    | item _ _ => exact absurd rfl (single _)
    | alone _ _ inside => exact ⟨p, c, w, inside, rfl⟩
  · rintro ⟨p, c, w, h, rfl⟩
    exact ⟨p, c, w, .alone given single h, rfl⟩

/-- What is reported of an input object is what is reported of its fields, the fields that it lacks, and what is wrong
with it as a whole. -/
theorem isReported_input (known : schema.details? name = some (.input fields isOneOf)) :
    IsReported schema path (.named name) (.obj entries) m ↔
      (∃ f ∈ fields, (∃ v, Json.lookup entries f.name = some v ∧ IsReported schema (path ++ [.key f.name]) f.type v m) ∨
        Json.lookup entries f.name = none ∧ f.isRequired = true ∧ m = ⟨path, .missingField f.name f.type⟩) ∨
      m ∈ objectMisfits path name fields isOneOf entries := by
  have hsame : ∀ {fields' isOneOf'}, schema.details? name = some (.input fields' isOneOf') →
      fields' = fields ∧ isOneOf' = isOneOf := by
    intro fields' isOneOf' known'
    rw [known] at known'
    cases known'
    exact ⟨rfl, rfl⟩
  rw [mem_objectMisfits_iff]
  constructor
  · rintro ⟨p, c, w, h, rfl⟩
    cases h with
    | @field _ _ _ _ f v _ p _ known' mem found inside =>
      obtain ⟨rfl, rfl⟩ := hsame known'
      exact .inl ⟨f, mem, .inl ⟨v, found, p, c, w, inside, by simp⟩⟩
    | @missing _ _ _ _ f known' mem absent required =>
      obtain ⟨rfl, rfl⟩ := hsame known'
      exact .inl ⟨f, mem, .inr ⟨absent, required, by simp⟩⟩
    | @unknown _ key _ _ _ v known' mem new =>
      obtain ⟨rfl, rfl⟩ := hsame known'
      exact .inr (.inl ⟨key, v, mem, new, by simp⟩)
    | choice known' count =>
      obtain ⟨rfl, rfl⟩ := hsame known'
      exact .inr (.inr ⟨rfl, .inl ⟨count, by simp⟩⟩)
    | @nullGiven _ _ _ f known' only given nullable =>
      obtain ⟨rfl, rfl⟩ := hsame known'
      exact .inr (.inr ⟨rfl, .inr ⟨f, only, isNullIn_iff.2 (.inl ⟨given, nullable⟩), rfl⟩⟩)
    | @nullFilled _ _ _ f known' only absent default =>
      obtain ⟨rfl, rfl⟩ := hsame known'
      exact .inr (.inr ⟨rfl, .inr ⟨f, only, isNullIn_iff.2 (.inr ⟨absent, default⟩), rfl⟩⟩)
    | notObject _ _ other => exact absurd rfl (other entries)
    | leaf _ leaf _ =>
      rw [Schema.isLeaf, Schema.typeIs, known] at leaf
      cases leaf
  · rintro (⟨f, mem, ⟨v, found, p, c, w, inside, rfl⟩ | ⟨absent, required, rfl⟩⟩ | ⟨key, v, mem, new, rfl⟩ |
      ⟨rfl, ⟨count, rfl⟩ | ⟨f, only, hnull, rfl⟩⟩)
    · exact ⟨.key f.name :: p, c, w, .field known mem found inside, by simp⟩
    · exact ⟨[], _, _, .missing known mem absent required, by simp⟩
    · exact ⟨[], _, _, .unknown known mem new, by simp⟩
    · exact ⟨[], _, _, .choice known count, by simp⟩
    · rcases isNullIn_iff.1 hnull with ⟨given, nullable⟩ | ⟨absent, default⟩
      · exact ⟨[.key f.name], _, _, .nullGiven known only given nullable, rfl⟩
      · exact ⟨[.key f.name], _, _, .nullFilled known only absent default, rfl⟩

/-- Nothing is reported of null, unless it may not be null. -/
theorem not_isReported_null (hn : type.isNonNull = false) : ¬ IsReported schema path type .null m := by
  rintro ⟨p, c, w, h, rfl⟩
  cases h with
  | null | nonNull => cases hn
  | alone given | notObject _ given | leaf given => exact given rfl

/-- What is reported of a value without fields of its own. -/
theorem isReported_leaf (given : value ≠ .null)
    (plain : ∀ entries fields isOneOf, value = .obj entries → schema.details? name ≠ some (.input fields isOneOf)) :
    IsReported schema path (.named name) value m ↔ ∃ c, leafCause? schema name value = some c ∧ m = ⟨path, c⟩ := by
  constructor
  · rintro ⟨p, c, w, h, rfl⟩
    cases h with
    | field known | missing known | unknown known | choice known | nullGiven known | nullFilled known =>
      exact absurd known (plain _ _ _ rfl)
    | notObject known _ _ => exact ⟨_, by rw [leafCause?, known], by simp⟩
    | leaf _ _ cause => exact ⟨c, cause, by simp⟩
  · rintro ⟨c, cause, rfl⟩
    cases hd : schema.details? name with
    | none =>
      rw [leafCause?, hd] at cause
      cases cause
    | some details =>
      cases details with
      | scalar | enum members =>
        exact ⟨[], c, value, .leaf given (by rw [Schema.isLeaf, Schema.typeIs, hd]; rfl) cause, by simp⟩
      | input fields isOneOf =>
        rw [leafCause?, hd] at cause
        cases cause
        exact ⟨[], _, value, .notObject hd given fun entries hobj => plain entries fields isOneOf hobj hd, by simp⟩
      | object interfaces fields | interface interfaces fields | union members =>
        rw [leafCause?, hd] at cause
        cases cause

/-- **The misfits of a value are what coercion reports of it.** -/
theorem mem_misfitsAt_iff : m ∈ misfitsAt schema path type value ↔ IsReported schema path type value m := by
  induction path, type, value using misfitsAt.induct schema with
  | case1 path value t hnull =>
    rw [misfitsAt, if_pos hnull, List.mem_singleton]
    obtain rfl := isNullValue_iff.1 hnull
    constructor
    · rintro rfl
      exact ⟨[], _, _, .null t, by simp⟩
    · rintro ⟨p, c, w, h, rfl⟩
      cases h with
      | null => simp
      | nonNull given _ => exact absurd rfl given
  | case2 path value t hnull ih =>
    rw [misfitsAt, if_neg hnull, ih, isReported_nonNull (mt isNullValue_iff.2 hnull)]
  | case3 path t =>
    rw [misfitsAt]
    exact iff_of_false List.not_mem_nil (not_isReported_null rfl)
  | case4 path t items ih =>
    rw [mem_misfitsAt_arr, isReported_arr]
    refine exists_congr fun i => exists_congr fun item => and_congr_right fun hi => ?_
    exact ih item (List.mem_of_getElem? hi) i
  | case5 path t single hnull harr ih => rw [misfitsAt_alone hnull harr, ih, isReported_alone hnull harr]
  | case6 path name =>
    rw [misfitsAt]
    exact iff_of_false List.not_mem_nil (not_isReported_null rfl)
  | case7 path name entries fields isOneOf known ih =>
    rw [misfitsAt_input known, isReported_input known, List.mem_append, List.mem_flatMap]
    refine or_congr_left (exists_congr fun f => and_congr_right fun _ => ?_)
    cases hf : Json.lookup entries f.name with
    | none => cases f.isRequired <;> simp
    | some v =>
      simpa using ih f f.name v (Json.mem_of_lookup hf)
  | case8 path name entries plain =>
    have hplain : ∀ entries' fields isOneOf, Json.obj entries = .obj entries' →
        schema.details? name ≠ some (.input fields isOneOf) := fun _ fields isOneOf _ => plain fields isOneOf
    rw [misfitsAt_leaf (by simp) hplain, isReported_leaf (by simp) hplain]
    simp [eq_comm]
  | case9 path name leaf hnull hobj =>
    have hplain : ∀ entries fields isOneOf, leaf = .obj entries →
        schema.details? name ≠ some (.input fields isOneOf) := fun entries _ _ h => absurd h (hobj entries)
    rw [misfitsAt_leaf hnull hplain, isReported_leaf hnull hplain]
    simp [eq_comm]

end

/-! ## Positions -/

/-- **Does a position lead out of an object**, to the only field of it that is filled, which the object lacks and its
default fills with null? -/
def LeadsToFilledNull (schema : Schema) (value : Json) (p : Json.Path) : Prop :=
  ∃ q entries name fields f, p = q ++ [.key f.name] ∧ value.get? q = some (.obj entries) ∧
    schema.details? name = some (.input fields true) ∧ fields.filter (·.isFilled entries) = [f] ∧
    Json.lookup entries f.name = none ∧ f.default? = some .null

section

variable {schema : Schema} {type : TypeRef} {value inner w : Json} {p : Json.Path} {c : MisfitCause} {s : Json.Step}

theorem LeadsToFilledNull.below (hs : ∀ q, value.get? (s :: q) = inner.get? q)
    (h : LeadsToFilledNull schema inner p) : LeadsToFilledNull schema value (s :: p) := by
  obtain ⟨q, entries, name, fields, f, rfl, hq, hf⟩ := h
  exact ⟨s :: q, entries, name, fields, f, rfl, by rw [hs, hq], hf⟩

/-- **The value that fails is at its position**, unless it is null and the position leads out of an object. -/
theorem Reports.get? (h : Reports schema type value p c w) :
    value.get? p = some w ∨ w = .null ∧ LeadsToFilledNull schema value p := by
  have hbelow : ∀ {value inner w : Json} {s : Json.Step} {p : Json.Path},
      (∀ q, value.get? (s :: q) = inner.get? q) → inner.get? p = some w ∨ w = .null ∧ LeadsToFilledNull schema inner p →
        value.get? (s :: p) = some w ∨ w = .null ∧ LeadsToFilledNull schema value (s :: p) :=
    fun hs h => h.imp (fun h => by rw [hs, h]) (And.imp_right (.below hs))
  induction h with
  | null | missing | unknown | choice | notObject | leaf => exact .inl (by rw [Json.get?])
  | nonNull _ _ ih | alone _ _ _ ih => exact ih
  | item found _ ih => exact hbelow (fun q => by rw [Json.get?, found, Option.bind_some]) ih
  | field _ _ found _ ih => exact hbelow (fun q => by rw [Json.get?, found, Option.bind_some]) ih
  | nullGiven _ _ given _ => exact .inl (by rw [Json.get?, given, Option.bind_some, Json.get?])
  | nullFilled known only absent default =>
    exact .inr ⟨rfl, [], _, _, _, _, rfl, by rw [Json.get?], known, only, absent, default⟩

end

/-! ## Values of input types -/

/-- Is a value one of a scalar type? A scalar type that is not a standard one has all values. -/
def IsScalarValue (name : String) (value : Json) : Prop :=
  match name with
  | "Int" => ∃ n, integer? value = some n ∧ isInt32 n = true
  | "Float" => (∃ n, value = .int n ∧ (Binary64.ofInt? n).isSome = true) ∨ ∃ x, value = .float x ∧ x.isFinite = true
  | "String" => ∃ s, value = .str s
  | "Boolean" => ∃ b, value = .bool b
  | "ID" => (∃ s, value = .str s) ∨ (integer? value).isSome = true
  | _ => True

/-- **Is a value one of an input type?** Null is a value of every type that may be null, a value that stands alone is
one of lists of its type. An input object has fields of its type only, and all of them but those that have a default or
may be null; if one of them is to be given, then exactly one is given or has a default, and it is not null. -/
inductive Satisfies (schema : Schema) : TypeRef → Json → Prop where
  | null {t : TypeRef} (nullable : t.isNonNull = false) : Satisfies schema t .null
  | nonNull {t : TypeRef} {v : Json} (given : v ≠ .null) (inside : Satisfies schema t v) :
      Satisfies schema (.nonNull t) v
  | items {t : TypeRef} {items : List Json} (each : ∀ item ∈ items, Satisfies schema t item) :
      Satisfies schema (.list t) (.arr items)
  | alone {t : TypeRef} {v : Json} (given : v ≠ .null) (single : ∀ items, v ≠ .arr items)
      (inside : Satisfies schema t v) : Satisfies schema (.list t) v
  | scalar {name : String} {v : Json} (known : schema.details? name = some .scalar) (value : IsScalarValue name v) :
      Satisfies schema (.named name) v
  | enum {name text : String} {members : List String} (known : schema.details? name = some (.enum members))
      (member : text ∈ members) : Satisfies schema (.named name) (.str text)
  | object {name : String} {fields : List InputValue} {isOneOf : Bool} {entries : List (String × Json)}
      (known : schema.details? name = some (.input fields isOneOf))
      (defined : ∀ entry ∈ entries, entry.1 ∈ fields.map (·.name))
      (each : ∀ f ∈ fields, ∀ v, Json.lookup entries f.name = some v → Satisfies schema f.type v)
      (absent : ∀ f ∈ fields, Json.lookup entries f.name = none → f.default?.isSome = true ∨ f.type.isNonNull = false)
      (one : isOneOf = true → ∃ f, fields.filter (·.isFilled entries) = [f] ∧ Json.lookup entries f.name ≠ some .null ∧
        (Json.lookup entries f.name = none → f.default? ≠ some .null)) : Satisfies schema (.named name) (.obj entries)

section

variable {schema : Schema} {path : Json.Path} {type : TypeRef} {value : Json} {name : String}
  {fields : List InputValue} {isOneOf : Bool} {entries : List (String × Json)}

theorem scalarCause?_eq_none_iff : scalarCause? name value = none ↔ IsScalarValue name value := by
  unfold scalarCause? IsScalarValue
  split
  · cases integer? value with
    | none => simp
    | some n => cases isInt32 n <;> simp
  · cases value with
    | int n => simp [Option.isSome_iff_ne_none]
    | float x => cases x.isFinite <;> simp
    | _ => simp
  · cases value <;> simp
  · cases value <;> simp
  · cases value <;> simp [integer?, Option.isSome_iff_ne_none]
  · simp

theorem objectMisfits_eq_nil_iff : objectMisfits path name fields isOneOf entries = [] ↔
    (∀ entry ∈ entries, entry.1 ∈ fields.map (·.name)) ∧
      (isOneOf = true → ∃ f, fields.filter (·.isFilled entries) = [f] ∧ f.isNullIn entries = false) := by
  simp only [List.eq_nil_iff_forall_not_mem, mem_objectMisfits_iff]
  constructor
  · intro h
    refine ⟨fun entry hentry => ?_, fun hone => ?_⟩
    · exact Decidable.byContradiction fun hnew => h _ (.inl ⟨entry.1, entry.2, hentry, hnew, rfl⟩)
    · have hcount : (fields.filter (·.isFilled entries)).length = 1 :=
        Decidable.byContradiction fun hcount => h _ (.inr ⟨hone, .inl ⟨hcount, rfl⟩⟩)
      obtain ⟨f, hf⟩ := List.length_eq_one_iff.1 hcount
      exact ⟨f, hf, Bool.eq_false_iff.2 fun hnull => h _ (.inr ⟨hone, .inr ⟨f, hf, hnull, rfl⟩⟩)⟩
  · rintro ⟨hdefined, hone⟩ m (⟨key, v, hmem, hnew, -⟩ | ⟨h, hwrong⟩)
    · exact hnew (hdefined _ hmem)
    · obtain ⟨f, hf, hnull⟩ := hone h
      rcases hwrong with ⟨hcount, -⟩ | ⟨f', hf', hnull', -⟩
      · exact hcount (by rw [hf]; rfl)
      · rw [hf] at hf'
        cases hf'
        rw [hnull] at hnull'
        cases hnull'

/-- Null is no value of a type that may not be null. -/
theorem not_satisfies_null (hn : type.isNonNull = true) : ¬ Satisfies schema type .null := by
  intro h
  cases h with
  | null nullable =>
    rw [hn] at nullable
    cases nullable
  | nonNull given _ => exact given rfl
  | alone | scalar => cases hn

/-- The values of an input object type. -/
theorem satisfies_input (known : schema.details? name = some (.input fields isOneOf)) :
    Satisfies schema (.named name) (.obj entries) ↔
      (∀ f ∈ fields, (∀ v, Json.lookup entries f.name = some v → Satisfies schema f.type v) ∧
        (Json.lookup entries f.name = none → f.isRequired = false)) ∧
      objectMisfits path name fields isOneOf entries = [] := by
  have hrequired : ∀ f : InputValue, f.isRequired = false ↔ f.default?.isSome = true ∨ f.type.isNonNull = false := by
    intro f
    rw [InputValue.isRequired]
    cases f.default? <;> cases f.type.isNonNull <;> simp
  rw [objectMisfits_eq_nil_iff]
  constructor
  · intro h
    cases h with
    | scalar known' =>
      rw [known] at known'
      cases known'
    | object known' defined each absent one =>
      rw [known] at known'
      cases known'
      refine ⟨fun f hf => ⟨each f hf, fun habsent => (hrequired f).2 (absent f hf habsent)⟩, defined, fun h => ?_⟩
      obtain ⟨f, hf, hgiven, hdefault⟩ := one h
      refine ⟨f, hf, Bool.eq_false_iff.2 fun hnull => ?_⟩
      rcases isNullIn_iff.1 hnull with ⟨hnull, -⟩ | ⟨habsent, hnull⟩
      · exact hgiven hnull
      · exact hdefault habsent hnull
  · rintro ⟨hfields, hdefined, hone⟩
    refine .object known hdefined (fun f hf => (hfields f hf).1)
      (fun f hf habsent => (hrequired f).1 ((hfields f hf).2 habsent)) fun h => ?_
    obtain ⟨f, hf, hnull⟩ := hone h
    rw [Bool.eq_false_iff, ne_eq, isNullIn_iff, not_or] at hnull
    refine ⟨f, hf, fun hgiven => ?_, fun habsent hdefault => hnull.2 ⟨habsent, hdefault⟩⟩
    cases hn : f.type.isNonNull with
    | true => exact not_satisfies_null hn ((hfields f (mem_of_filled hf)).1 _ hgiven)
    | false => exact hnull.1 ⟨hgiven, hn⟩

/-- The values of an input type without fields. -/
theorem leafCause?_eq_none_iff (ht : schema.isInputType (.named name) = true) (given : value ≠ .null)
    (plain : ∀ entries fields isOneOf, value = .obj entries → schema.details? name ≠ some (.input fields isOneOf)) :
    leafCause? schema name value = none ↔ Satisfies schema (.named name) value := by
  obtain ⟨details, hd, hinput⟩ := Schema.typeIs_iff.1 ht
  have hd : schema.details? name = some details := hd
  cases details with
  | scalar =>
    rw [leafCause?, hd]
    refine scalarCause?_eq_none_iff.trans ⟨.scalar hd, fun h => ?_⟩
    cases h with
    | null => exact absurd rfl given
    | scalar _ value => exact value
    | enum known | object known =>
      rw [hd] at known
      cases known
  | enum members =>
    rw [leafCause?, hd]
    simp only
    constructor
    · intro h
      cases value with
      | str text => exact .enum hd (by simpa [enumCause?] using h)
      | _ => cases h
    · intro h
      cases h with
      | null => exact absurd rfl given
      | scalar known | object known =>
        rw [hd] at known
        cases known
      | enum known member =>
        rw [hd] at known
        cases known
        simpa [enumCause?] using member
  | input fields isOneOf =>
    rw [leafCause?, hd]
    refine iff_of_false (by simp) fun h => ?_
    cases h with
    | null => exact given rfl
    | scalar known | enum known =>
      rw [hd] at known
      cases known
    | object known => exact plain _ _ _ rfl known
  | object | interface | union => cases hinput

/-- **A value has no misfits if and only if it is one of the input type.** -/
theorem misfitsAt_eq_nil_iff_satisfies (hi : schema.TakesInputs) (ht : schema.isInputType type = true) :
    misfitsAt schema path type value = [] ↔ Satisfies schema type value := by
  induction path, type, value using misfitsAt.induct schema with
  | case1 path value t hnull =>
    rw [misfitsAt, if_pos hnull]
    obtain rfl := isNullValue_iff.1 hnull
    refine iff_of_false (List.cons_ne_nil _ _) fun h => ?_
    cases h with
    | null nullable => cases nullable
    | nonNull given _ => exact given rfl
  | case2 path value t hnull ih =>
    have given : value ≠ .null := mt isNullValue_iff.2 hnull
    rw [misfitsAt, if_neg hnull, ih ht]
    refine ⟨.nonNull given, fun h => ?_⟩
    cases h with
    | null _ => exact absurd rfl given
    | nonNull _ inside => exact inside
  | case3 path t => exact iff_of_true (by rw [misfitsAt]) (.null rfl)
  | case4 path t items ih =>
    have harr : misfitsAt schema path (.list t) (.arr items) = [] ↔ ∀ i item, items[i]? = some item →
        misfitsAt schema (path ++ [.index i]) t item = [] := by
      simp only [List.eq_nil_iff_forall_not_mem, mem_misfitsAt_arr]
      grind
    rw [harr]
    constructor
    · intro h
      refine .items fun item hitem => ?_
      obtain ⟨i, hi⟩ := List.mem_iff_getElem?.1 hitem
      exact (ih item hitem i ht).1 (h i item hi)
    · intro h i item hi
      have hitem := List.mem_of_getElem? hi
      refine (ih item hitem i ht).2 ?_
      cases h with
      | items each => exact each item hitem
      | alone _ single _ => exact absurd rfl (single items)
  | case5 path t single hnull harr ih =>
    rw [misfitsAt_alone hnull harr, ih ht]
    refine ⟨.alone hnull harr, fun h => ?_⟩
    cases h with
    | null _ => exact absurd rfl hnull
    | items _ => exact absurd rfl (harr _)
    | alone _ _ inside => exact inside
  | case6 path name => exact iff_of_true (by rw [misfitsAt]) (.null rfl)
  | case7 path name entries fields isOneOf known ih =>
    rw [misfitsAt_input known, satisfies_input known, List.append_eq_nil_iff, List.flatMap_eq_nil_iff]
    refine and_congr_left fun _ => forall_congr' fun f => forall_congr' fun hf => ?_
    cases hgiven : Json.lookup entries f.name with
    | none => cases f.isRequired <;> simp
    | some v => simpa using ih f f.name v (Json.mem_of_lookup hgiven) (hi.isInputType known hf)
  | case8 path name entries plain =>
    have hplain : ∀ entries' fields isOneOf, Json.obj entries = .obj entries' →
        schema.details? name ≠ some (.input fields isOneOf) := fun _ fields isOneOf _ => plain fields isOneOf
    rw [misfitsAt_leaf (by simp) hplain, List.map_eq_nil_iff, Option.toList_eq_nil_iff]
    exact leafCause?_eq_none_iff ht (by simp) hplain
  | case9 path name leaf hnull hobj =>
    have hplain : ∀ entries fields isOneOf, leaf = .obj entries →
        schema.details? name ≠ some (.input fields isOneOf) := fun entries _ _ h => absurd h (hobj entries)
    rw [misfitsAt_leaf hnull hplain, List.map_eq_nil_iff, Option.toList_eq_nil_iff]
    exact leafCause?_eq_none_iff ht hnull hplain

end

end FixtureCheck.GraphQL
