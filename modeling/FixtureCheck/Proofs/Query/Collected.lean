import FixtureCheck.Json.Basic
import FixtureCheck.Proofs.Query.Cycles

/-!
# The fields that a selection set collects

An executor collects the fields of a selection set for an object of a known type: it leaves out what `@skip` and
`@include` rule out and fragments that do not apply to the type, and visits a fragment once (`Execution.collect`). Below
a field it goes on with the selections of all collected fields of one key (`Execution.fieldsBelow`). What is collected
are the fields that fragments lead to, through as many spreads of one fragment as one likes (`Execution.mem_collect`),
since a fragment that has been visited has been collected.
-/

namespace FixtureCheck.GraphQL

/-- What decides on the fields that selections of a document collect. -/
structure Execution where
  schema : Schema
  document : Document
  /-- Does the condition of a directive hold? -/
  holds : Directive → Bool
  /-- The types of the objects at the positions of a response. -/
  typeAt : Json.Path → String

/-- A collected field and its own selections. -/
abbrev Selected := Field × List Selection

/-- How many fragments have not been visited? -/
def unvisited (document : Document) (visited : List String) : Nat :=
  ((fragmentNames document).filter (!visited.contains ·)).length

theorem unvisited_cons_le (document : Document) (name : String) (visited : List String) :
    unvisited document (name :: visited) ≤ unvisited document visited := by
  refine (List.monotone_filter_right _ fun other ho => ?_).length_le
  simp only [List.contains_cons, Bool.not_or, Bool.and_eq_true] at ho
  exact ho.2

theorem unvisited_cons_lt {document : Document} {name : String} {visited : List String}
    (hname : name ∈ fragmentNames document) (hnew : visited.contains name = false) :
    unvisited document (name :: visited) < unvisited document visited := by
  have hsplit : (fragmentNames document).filter (!(name :: visited).contains ·) =
      ((fragmentNames document).filter (!visited.contains ·)).filter (· != name) := by
    rw [List.filter_filter]
    refine List.filter_congr fun other _ => ?_
    rw [List.contains_cons, Bool.not_or, bne]
  rw [unvisited, unvisited, hsplit, List.length_filter_lt_length_iff_exists]
  exact ⟨name, List.mem_filter.2 ⟨hname, by simpa using hnew⟩, by simp⟩

theorem lex_of_le_of_lt {a b c d : Nat} (hle : a ≤ b) (hlt : c < d) :
    Prod.Lex (fun a₁ a₂ => a₁ < a₂) (fun a₁ a₂ => a₁ < a₂) (a, c) (b, d) := by
  rcases Nat.lt_or_eq_of_le hle with h | rfl
  · exact .left _ _ h
  · exact .right _ hlt

theorem sizeOf_lt_cons (selection : Selection) (rest : List Selection) : sizeOf rest < sizeOf (selection :: rest) := by
  simp only [List.cons.sizeOf_spec]
  omega

theorem sizeOf_append (a b : List Selection) : sizeOf (a ++ b) + 1 = sizeOf a + sizeOf b := by
  induction a with
  | nil => simp [Nat.add_comm]
  | cons first rest ih =>
    simp only [List.cons_append, List.cons.sizeOf_spec]
    omega

namespace Execution

/-- Do directives let a selection be? -/
def includes (x : Execution) (directives : List Directive) : Bool :=
  directives.all fun d =>
    if d.name == "skip" then !x.holds d
    else if d.name == "include" then x.holds d
    else true

/-- Does a fragment with a type condition apply to objects of a type? -/
def applies (x : Execution) (type condition : String) : Bool := decide (type ∈ x.schema.possibleTypes condition)

/-- The fragment of a name. -/
def fragment? (x : Execution) (name : String) : Option Fragment := (fragments x.document).find? (·.name == name)

theorem mem_fragmentNames {x : Execution} {name : String} {f : Fragment} (h : x.fragment? name = some f) :
    name ∈ fragmentNames x.document :=
  List.mem_map.2 ⟨f, List.mem_of_find?_eq_some h, by simpa using List.find?_some h⟩

/-- **The fields that selections collect** for an object of a type, where some fragments have been visited. -/
def collect (x : Execution) (type : String) (visited : List String) (selections : List Selection) : List Selected :=
  match selections with
  | [] => []
  | .field f inner :: rest =>
    if x.includes f.directives then (f, inner) :: x.collect type visited rest else x.collect type visited rest
  | .inline condition directives inner :: rest =>
    if x.includes directives && condition.all (x.applies type) then x.collect type visited (inner ++ rest)
    else x.collect type visited rest
  | .spread name directives :: rest =>
    if x.includes directives && !visited.contains name then
      match _hf : x.fragment? name with
      | none => x.collect type (name :: visited) rest
      | some f =>
        if x.applies type f.condition then x.collect type (name :: visited) (f.selections ++ rest)
        else x.collect type (name :: visited) rest
    else x.collect type visited rest
termination_by (unvisited x.document visited, sizeOf selections)
decreasing_by
  · exact .right _ (sizeOf_lt_cons _ rest)
  · exact .right _ (sizeOf_lt_cons _ rest)
  · refine .right _ ?_
    have := sizeOf_append inner rest
    simp only [List.cons.sizeOf_spec, Selection.inline.sizeOf_spec]
    omega
  · exact .right _ (sizeOf_lt_cons _ rest)
  · exact lex_of_le_of_lt (unvisited_cons_le ..) (sizeOf_lt_cons _ rest)
  · rename_i hnew _
    simp only [Bool.and_eq_true, Bool.not_eq_true'] at hnew
    exact .left _ _ (unvisited_cons_lt (mem_fragmentNames _hf) hnew.2)
  · exact lex_of_le_of_lt (unvisited_cons_le ..) (sizeOf_lt_cons _ rest)
  · exact .right _ (sizeOf_lt_cons _ rest)

/-! ## What fragments lead to -/

/-- **Do selections lead to a field** for an object of a type, through fragments that apply, at most `n` of them by
spreads? -/
inductive LeadsTo (x : Execution) (type : String) (c : Selected) : Nat → List Selection → Prop where
  | field {n : Nat} {selections : List Selection} (mem : .field c.1 c.2 ∈ selections)
      (included : x.includes c.1.directives = true) : LeadsTo x type c n selections
  | inline {n : Nat} {selections inner : List Selection} {condition : Option String} {directives : List Directive}
      (mem : .inline condition directives inner ∈ selections) (included : x.includes directives = true)
      (meets : condition.all (x.applies type) = true) (below : LeadsTo x type c n inner) : LeadsTo x type c n selections
  | spread {n : Nat} {selections : List Selection} {name : String} {directives : List Directive} {f : Fragment}
      (mem : .spread name directives ∈ selections) (included : x.includes directives = true)
      (found : x.fragment? name = some f) (meets : x.applies type f.condition = true)
      (below : LeadsTo x type c n f.selections) : LeadsTo x type c (n + 1) selections

variable {x : Execution} {type : String} {c : Selected}

theorem LeadsTo.mono {n : Nat} {selections selections' : List Selection} (h : LeadsTo x type c n selections)
    (hs : ∀ s ∈ selections, s ∈ selections') : LeadsTo x type c n selections' := by
  cases h with
  | field mem included => exact .field (hs _ mem) included
  | inline mem included meets below => exact .inline (hs _ mem) included meets below
  | spread mem included found meets below => exact .spread (hs _ mem) included found meets below

theorem leadsTo_append {n : Nat} {a b : List Selection} :
    LeadsTo x type c n (a ++ b) ↔ LeadsTo x type c n a ∨ LeadsTo x type c n b := by
  constructor
  · intro h
    cases h with
    | field mem included =>
      exact (List.mem_append.1 mem).imp (.field · included) (.field · included)
    | inline mem included meets below =>
      exact (List.mem_append.1 mem).imp (.inline · included meets below) (.inline · included meets below)
    | spread mem included found meets below =>
      exact (List.mem_append.1 mem).imp (.spread · included found meets below) (.spread · included found meets below)
  · rintro (h | h)
    · exact h.mono fun s hs => List.mem_append_left _ hs
    · exact h.mono fun s hs => List.mem_append_right _ hs

theorem leadsTo_cons {n : Nat} {first : Selection} {rest : List Selection} :
    LeadsTo x type c n (first :: rest) ↔ LeadsTo x type c n [first] ∨ LeadsTo x type c n rest :=
  leadsTo_append (a := [first])

theorem LeadsTo.of_field {n : Nat} {f : Field} {inner : List Selection}
    (h : LeadsTo x type c n [.field f inner]) : c = (f, inner) ∧ x.includes f.directives = true := by
  cases h with
  | field mem included =>
    cases List.mem_singleton.1 mem
    exact ⟨rfl, included⟩
  | inline mem _ _ _ | spread mem _ _ _ _ => cases List.mem_singleton.1 mem

theorem LeadsTo.of_inline {n : Nat} {condition : Option String} {directives : List Directive} {inner : List Selection}
    (h : LeadsTo x type c n [.inline condition directives inner]) :
    (x.includes directives && condition.all (x.applies type)) = true ∧ LeadsTo x type c n inner := by
  cases h with
  | inline mem included meets below =>
    cases List.mem_singleton.1 mem
    exact ⟨Bool.and_eq_true_iff.2 ⟨included, meets⟩, below⟩
  | field mem _ | spread mem _ _ _ _ => cases List.mem_singleton.1 mem

/-- Does the spread of a fragment lead to a field, through fewer than `n` further spreads? -/
def SpreadLeads (x : Execution) (type : String) (c : Selected) (name : String) (n : Nat) : Prop :=
  ∃ f, x.fragment? name = some f ∧ x.applies type f.condition = true ∧ ∃ m < n, LeadsTo x type c m f.selections

theorem LeadsTo.of_spread {n : Nat} {name : String} {directives : List Directive}
    (h : LeadsTo x type c n [.spread name directives]) :
    x.includes directives = true ∧ SpreadLeads x type c name n := by
  cases h with
  | spread mem included found meets below =>
    cases List.mem_singleton.1 mem
    exact ⟨included, _, found, meets, _, Nat.lt_succ_self _, below⟩
  | field mem _ | inline mem _ _ _ => cases List.mem_singleton.1 mem

/-- What is collected is led to. -/
theorem exists_leadsTo_of_mem_collect {visited : List String} {selections : List Selection}
    (h : c ∈ x.collect type visited selections) : ∃ n, LeadsTo x type c n selections := by
  have hrest : ∀ {first : Selection} {rest : List Selection}, (∃ n, LeadsTo x type c n rest) →
      ∃ n, LeadsTo x type c n (first :: rest) :=
    fun ⟨n, hn⟩ => ⟨n, hn.mono fun s hs => List.mem_cons_of_mem _ hs⟩
  fun_induction collect x type visited selections with
  | case1 => cases h
  | case2 visited f inner rest included ih =>
    rcases List.mem_cons.1 h with rfl | h
    · exact ⟨0, .field List.mem_cons_self included⟩
    · exact hrest (ih h)
  | case3 visited f inner rest _ ih => exact hrest (ih h)
  | case4 visited condition directives inner rest hin ih =>
    rw [Bool.and_eq_true] at hin
    obtain ⟨n, hn⟩ := ih h
    rcases leadsTo_append.1 hn with hn | hn
    · exact ⟨n, .inline List.mem_cons_self hin.1 hin.2 hn⟩
    · exact hrest ⟨n, hn⟩
  | case5 visited condition directives inner rest _ ih => exact hrest (ih h)
  | case6 visited name directives rest _ _ ih => exact hrest (ih h)
  | case7 visited name directives rest hnew f found meets ih =>
    rw [Bool.and_eq_true] at hnew
    obtain ⟨n, hn⟩ := ih h
    rcases leadsTo_append.1 hn with hn | hn
    · exact ⟨n + 1, .spread List.mem_cons_self hnew.1 found meets hn⟩
    · exact hrest ⟨n, hn⟩
  | case8 visited name directives rest _ f _ _ ih => exact hrest (ih h)
  | case9 visited name directives rest _ ih => exact hrest (ih h)

theorem SpreadLeads.mono {name : String} {m n : Nat} (h : SpreadLeads x type c name m) (hle : m ≤ n) :
    SpreadLeads x type c name n := by
  obtain ⟨f, found, meets, k, hk, hf⟩ := h
  exact ⟨f, found, meets, k, by omega, hf⟩

/-- Has a fragment been visited the spread of which leads to a field? -/
def HasVisited (x : Execution) (type : String) (c : Selected) (visited : List String) (n : Nat) : Prop :=
  ∃ name ∈ visited, SpreadLeads x type c name n

theorem HasVisited.mono {visited : List String} {m n : Nat} (h : HasVisited x type c visited m) (hle : m ≤ n) :
    HasVisited x type c visited n := by
  obtain ⟨name, hname, hs⟩ := h
  exact ⟨name, hname, hs.mono hle⟩

theorem hasVisited_cons {visited : List String} {name : String} {n : Nat} :
    HasVisited x type c (name :: visited) n ↔ SpreadLeads x type c name n ∨ HasVisited x type c visited n :=
  List.exists_mem_cons_iff ..

/-- A fragment that is just being visited leads to nothing that is not collected, for fields that it leads to by way of
itself it leads to by a shorter way. -/
theorem mem_or_hasVisited_of_cons {visited : List String} {name : String} {f : Fragment} {P : Prop}
    (found : x.fragment? name = some f) {rest : List Selection}
    (h : ∀ n, LeadsTo x type c n (f.selections ++ rest) → P ∨ HasVisited x type c (name :: visited) n) {n : Nat}
    (hn : LeadsTo x type c n (f.selections ++ rest)) : P ∨ HasVisited x type c visited n := by
  rcases h n hn with hp | hv
  · exact .inl hp
  · rcases hasVisited_cons.1 hv with ⟨g, found', meets, m, hm, hg⟩ | hv
    · rw [found] at found'
      cases found'
      exact (mem_or_hasVisited_of_cons found h (leadsTo_append.2 (.inl hg))).imp_right (·.mono (by omega))
    · exact .inr hv
termination_by n

/-- What selections lead to is collected, or a visited fragment leads to it. -/
theorem mem_collect_or_hasVisited {visited : List String} {selections : List Selection} :
    ∀ n, LeadsTo x type c n selections → c ∈ x.collect type visited selections ∨ HasVisited x type c visited n := by
  fun_induction collect x type visited selections with
  | case1 =>
    intro n hn
    cases hn with
    | field mem _ | inline mem _ _ _ | spread mem _ _ _ _ => cases mem
  | case2 visited f inner rest included ih =>
    intro n hn
    rcases leadsTo_cons.1 hn with hn | hn
    · exact .inl (List.mem_cons.2 (.inl hn.of_field.1))
    · exact (ih n hn).imp_left (List.mem_cons_of_mem _)
  | case3 visited f inner rest excluded ih =>
    intro n hn
    rcases leadsTo_cons.1 hn with hn | hn
    · exact absurd hn.of_field.2 excluded
    · exact ih n hn
  | case4 visited condition directives inner rest _ ih =>
    intro n hn
    rcases leadsTo_cons.1 hn with hn | hn
    · exact ih n (leadsTo_append.2 (.inl hn.of_inline.2))
    · exact ih n (leadsTo_append.2 (.inr hn))
  | case5 visited condition directives inner rest hout ih =>
    intro n hn
    rcases leadsTo_cons.1 hn with hn | hn
    · exact absurd hn.of_inline.1 hout
    · exact ih n hn
  | case6 visited name directives rest _ found ih =>
    have hno : ∀ n, ¬ SpreadLeads x type c name n := by
      rintro n ⟨f, found', -⟩
      rw [found] at found'
      cases found'
    intro n hn
    rcases leadsTo_cons.1 hn with hn | hn
    · exact absurd hn.of_spread.2 (hno n)
    · exact (ih n hn).imp_right fun hv => (hasVisited_cons.1 hv).resolve_left (hno n)
  | case7 visited name directives rest _ f found _ ih =>
    intro n hn
    rcases leadsTo_cons.1 hn with hn | hn
    · obtain ⟨-, g, found', meets, m, hm, hg⟩ := hn.of_spread
      rw [found] at found'
      cases found'
      exact (mem_or_hasVisited_of_cons found ih (leadsTo_append.2 (.inl hg))).imp_right (·.mono (by omega))
    · exact mem_or_hasVisited_of_cons found ih (leadsTo_append.2 (.inr hn))
  | case8 visited name directives rest _ f found hout ih =>
    have hno : ∀ n, ¬ SpreadLeads x type c name n := by
      rintro n ⟨g, found', meets, -⟩
      rw [found] at found'
      cases found'
      exact hout meets
    intro n hn
    rcases leadsTo_cons.1 hn with hn | hn
    · exact absurd hn.of_spread.2 (hno n)
    · exact (ih n hn).imp_right fun hv => (hasVisited_cons.1 hv).resolve_left (hno n)
  | case9 visited name directives rest hout ih =>
    intro n hn
    rcases leadsTo_cons.1 hn with hn | hn
    · obtain ⟨included, hs⟩ := hn.of_spread
      have hseen : name ∈ visited := by simpa [included] using hout
      exact .inr ⟨name, hseen, hs⟩
    · exact ih n hn

/-- **Selections collect the fields that they lead to.** -/
theorem mem_collect {selections : List Selection} :
    c ∈ x.collect type [] selections ↔ ∃ n, LeadsTo x type c n selections := by
  refine ⟨exists_leadsTo_of_mem_collect, fun ⟨n, hn⟩ => (mem_collect_or_hasVisited n hn).resolve_right ?_⟩
  rintro ⟨name, hname, -⟩
  cases hname

/-! ## Positions of a response -/

/-- The selections of all fields of one key. -/
def selectionsOf (fields : List Selected) (key : String) : List Selection :=
  (fields.filter (·.1.key == key)).flatMap (·.2)

/-- **The selections at a position below a place of a response** where there are selections: below a field, those of all
fields of its key that are collected for the object there. Items of an array have the selections of the array. -/
def selectionsBelow (x : Execution) (place : Json.Path) (selections : List Selection) : Json.Path → List Selection
  | [] => selections
  | .key key :: rest =>
    x.selectionsBelow (place ++ [.key key]) (selectionsOf (x.collect (x.typeAt place) [] selections) key) rest
  | .index i :: rest => x.selectionsBelow (place ++ [.index i]) selections rest

/-- **The fields that are collected at a position** below a place where there are selections. -/
def fieldsBelow (x : Execution) (place : Json.Path) (selections : List Selection) (path : Json.Path) : List Selected :=
  x.collect (x.typeAt (place ++ path)) [] (x.selectionsBelow place selections path)

theorem mem_selectionsOf {fields : List Selected} {key : String} {s : Selection} :
    s ∈ selectionsOf fields key ↔ ∃ c ∈ fields, c.1.key = key ∧ s ∈ c.2 := by
  simp [selectionsOf, and_assoc]

end Execution

end FixtureCheck.GraphQL
