import FixtureCheck.Fixture.Output
import FixtureCheck.Proofs.Except
import FixtureCheck.Proofs.Json.Number
import FixtureCheck.Proofs.Output.Coercion

/-!
# Where the errors of an output point

An error of an output ends with the quoted position of a value. Names of fields and numbers of items hold no dots and no
quotation marks, so the position can be read off the error (`quotedEnd_message`), and no other position has the same
text (`pathText_injective`). It leads to the value that coercion found to fail, unless that is the null with which an
object was filled: then it leads out of the object (`Reports.get?`).
-/

namespace FixtureCheck.Fixture

open GraphQL (Schema TypeRef InputValue IsName Misfit MisfitCause Reports Satisfies LeadsToFilledNull pathText
  stepText)

/-! ## Reading positions -/

/-- The text between the last two quotation marks, if the second one ends the text. -/
def quotedEnd (text : String) : Option String :=
  match text.toList.reverse with
  | '"' :: rest => if '"' ∈ rest then some (String.ofList (rest.takeWhile (· ≠ '"')).reverse) else none
  | _ => none

/-- The parts of a text between dots; the empty text has none. -/
def dotted (text : String) : List String :=
  if text = "" then [] else (text.toList.splitOn '.').map String.ofList

/-- The value that parts lead to, one after the other: keys of objects and indexes of arrays. -/
def follow? : Json → List String → Option Json
  | value, [] => some value
  | .obj entries, part :: rest => (Json.lookup entries part).bind (follow? · rest)
  | .arr items, part :: rest => (part.toNat?.bind (items[·]?)).bind (follow? · rest)
  | _, _ :: _ => none

/-! ## Words -/

/-- Is a step one to an index or to a name? -/
def IsWord : Json.Step → Prop
  | .key name => IsName name
  | .index _ => True

theorem toList_stepText_index (i : Nat) : (stepText (.index i)).toList = Nat.toDigits 10 i := Nat.toList_repr

/-- An index is read off its text. -/
theorem toNat?_stepText (i : Nat) : (stepText (.index i)).toNat? = some i := by
  have hdigits := toList_stepText_index i
  rw [Json.toNat?_of_allDigits, hdigits, Json.digitsValue_toDigits]
  · rw [hdigits]
    exact Nat.toDigits_ne_nil
  · rw [hdigits]
    exact Json.allDigits_toDigits i

theorem isNameContinue_stepText {s : Json.Step} (h : IsWord s) :
    ∀ c ∈ (stepText s).toList, GraphQL.isNameContinue c = true := by
  cases s with
  | key name => exact h.isNameContinue
  | index i =>
    intro c hc
    rw [toList_stepText_index] at hc
    have hdigit : c.isDigit = true := Json.allDigits_toDigits i c hc
    simp [GraphQL.isNameContinue, Char.isAlphanum, hdigit]

theorem stepText_ne_empty {s : Json.Step} (h : IsWord s) : stepText s ≠ "" := by
  cases s with
  | key name => exact h.ne_empty
  | index i =>
    intro hempty
    have hnil : Nat.toDigits 10 i = [] := by
      rw [← toList_stepText_index, hempty, String.toList_empty]
    exact Nat.toDigits_ne_nil hnil

/-- Different words have different texts. -/
theorem stepText_injective {s s' : Json.Step} (h : IsWord s) (h' : IsWord s') (heq : stepText s = stepText s') :
    s = s' := by
  cases s with
  | key name =>
    cases s' with
    | key name' => exact congrArg _ heq
    | index i => exact absurd heq (h.ne_toString i)
  | index i =>
    cases s' with
    | key name => exact absurd heq.symm (h'.ne_toString i)
    | index i' =>
      have hnumber := congrArg String.toNat? heq
      rw [toNat?_stepText, toNat?_stepText] at hnumber
      rw [Option.some.inj hnumber]

variable {p p' : Json.Path}

theorem toList_pathText (p : Json.Path) :
    (pathText p).toList = ['.'].intercalate (p.map fun s => (stepText s).toList) := by
  rw [pathText, String.toList_intercalate, List.map_map]
  rfl

/-- **The steps of a path are read off its text.** -/
theorem dotted_pathText (h : ∀ s ∈ p, IsWord s) : dotted (pathText p) = p.map stepText := by
  cases p with
  | nil => rfl
  | cons first rest =>
    have hdots : ∀ l ∈ (first :: rest).map fun s => (stepText s).toList, '.' ∉ l := by
      intro l hl hdot
      obtain ⟨s, hs, rfl⟩ := List.mem_map.1 hl
      cases isNameContinue_stepText (h s hs) '.' hdot
    have hsplit : (pathText (first :: rest)).toList.splitOn '.' = (first :: rest).map fun s => (stepText s).toList := by
      rw [toList_pathText, List.splitOn_intercalate _ hdots (List.cons_ne_nil _ _)]
    have hne : pathText (first :: rest) ≠ "" := by
      intro hempty
      rw [hempty, String.toList_empty, List.splitOn_nil] at hsplit
      have hfirst : [] = (stepText first).toList := (List.cons.inj hsplit).1
      exact stepText_ne_empty (h first List.mem_cons_self) (String.toList_eq_nil_iff.1 hfirst.symm)
    rw [dotted, if_neg hne, hsplit, List.map_map]
    simp

/-- The text of a path has the characters of names and numbers, and dots between them. -/
theorem isNameContinue_pathText : ∀ {p : Json.Path}, (∀ s ∈ p, IsWord s) →
    ∀ c ∈ (pathText p).toList, GraphQL.isNameContinue c = true ∨ c = '.'
  | [], _, c, hc => by cases hc
  | [s], h, c, hc => by
    rw [toList_pathText, List.map_singleton, List.intercalate_singleton] at hc
    exact .inl (isNameContinue_stepText (h s List.mem_cons_self) c hc)
  | s :: s' :: rest, h, c, hc => by
    obtain ⟨hs, hrest⟩ := List.forall_mem_cons.1 h
    have hchars : (pathText (s :: s' :: rest)).toList =
        (stepText s).toList ++ ['.'] ++ (pathText (s' :: rest)).toList := by
      simp only [toList_pathText, List.map_cons, List.intercalate_cons_cons]
    simp only [hchars, List.mem_append, List.mem_singleton] at hc
    rcases hc with (hc | hc) | hc
    · exact .inl (isNameContinue_stepText hs c hc)
    · exact .inr hc
    · exact isNameContinue_pathText hrest c hc

theorem map_stepText_injective : ∀ {p p' : Json.Path}, (∀ s ∈ p, IsWord s) → (∀ s ∈ p', IsWord s) →
    p.map stepText = p'.map stepText → p = p'
  | [], [], _, _, _ => rfl
  | [], _ :: _, _, _, heq => by cases heq
  | _ :: _, [], _, _, heq => by cases heq
  | s :: rest, s' :: rest', h, h', heq => by
    obtain ⟨hs, hrest⟩ := List.forall_mem_cons.1 h
    obtain ⟨hs', hrest'⟩ := List.forall_mem_cons.1 h'
    obtain ⟨hfirst, hothers⟩ := List.cons.inj heq
    rw [stepText_injective hs hs' hfirst, map_stepText_injective hrest hrest' hothers]

/-- **Different paths have different texts.** -/
theorem pathText_injective (h : ∀ s ∈ p, IsWord s) (h' : ∀ s ∈ p', IsWord s) (heq : pathText p = pathText p') :
    p = p' :=
  map_stepText_injective h h' (by rw [← dotted_pathText h, heq, dotted_pathText h'])

/-- A text without quotation marks is read back from between two of them. -/
theorem quotedEnd_append (before : String) {text : String} (h : '"' ∉ text.toList) :
    quotedEnd (before ++ "\"" ++ text ++ "\"") = some text := by
  have hchars : (before ++ "\"" ++ text ++ "\"").toList.reverse =
      '"' :: (text.toList.reverse ++ '"' :: before.toList.reverse) := by simp
  have hall : ∀ c ∈ text.toList.reverse, decide (c ≠ '"') = true := by
    intro c hc
    rw [List.mem_reverse] at hc
    exact decide_eq_true fun hquote => h (hquote ▸ hc)
  have htake : (text.toList.reverse ++ '"' :: before.toList.reverse).takeWhile (fun c => decide (c ≠ '"')) =
      text.toList.reverse := by
    rw [List.takeWhile_append_of_pos hall]
    simp
  unfold quotedEnd
  rw [hchars]
  simp only [htake]
  simp

/-- **The text of its path is read off the message about a misfit.** -/
theorem quotedEnd_message (h : ∀ s ∈ p, IsWord s) (c : MisfitCause) :
    quotedEnd (Misfit.mk p c).message = some (pathText p) := by
  have hquote : '"' ∉ (pathText p).toList := by
    intro hmem
    rcases isNameContinue_pathText h _ hmem with hc | hc
    · cases hc
    · cases hc
  have hmessage : (Misfit.mk p c).message = c.message ++ " At " ++ "\"" ++ pathText p ++ "\"" := by
    have hquoted : " At \"" = " At " ++ "\"" := rfl
    rw [Misfit.message, hquoted, ← String.append_assoc]
  rw [hmessage, quotedEnd_append _ hquote]

/-! ## Following positions -/

theorem follow?_append (parts parts' : List String) (value : Json) :
    follow? value (parts ++ parts') = (follow? value parts).bind (follow? · parts') := by
  induction parts generalizing value with
  | nil => simp [follow?]
  | cons part rest ih =>
    cases value with
    | obj entries => simp [follow?, ih, Option.bind_assoc]
    | arr items => simp [follow?, ih, Option.bind_assoc]
    | _ => simp [follow?]

/-- The parts of a path lead to where the path leads. -/
theorem follow?_of_get? {w : Json} : ∀ {p : Json.Path} {value : Json}, value.get? p = some w →
    follow? value (p.map stepText) = some w
  | [], value, h => by
    rw [Json.get?] at h
    rw [List.map_nil, follow?, h]
  | s :: rest, value, h => by
    cases value with
    | obj entries =>
      cases s with
      | key name =>
        rw [Json.get?] at h
        obtain ⟨v, hv, hw⟩ := Option.bind_eq_some_iff.1 h
        rw [List.map_cons, stepText, follow?, hv, Option.bind_some, follow?_of_get? hw]
      | index i => simp [Json.get?] at h
    | arr items =>
      cases s with
      | key name => simp [Json.get?] at h
      | index i =>
        rw [Json.get?] at h
        obtain ⟨v, hv, hw⟩ := Option.bind_eq_some_iff.1 h
        rw [List.map_cons, follow?, toNat?_stepText, Option.bind_some, hv, Option.bind_some, follow?_of_get? hw]
    | _ => simp [Json.get?] at h

/-! ## Outputs -/

section

variable {schema : Schema} {mutation parameter value w : Json} {type : TypeRef} {p : Json.Path} {c : MisfitCause}

theorem of_labelled {α : Type} {name? : String → Option α} {label : Json} {a : α}
    (h : labelled name? label = .ok (some a)) : ∃ name, label = .str name ∧ name? name = some a := by
  unfold labelled at h
  split at h
  · rename_i name
    exact ⟨name, rfl, Except.ok.inj h⟩
  · obtain ⟨_, -, hnone⟩ := map_eq_ok_iff.1 h
    cases hnone

/-- A mutation is a field of a type. -/
theorem exists_of_mutationField {root : String} {field : GraphQL.OutputField}
    (h : mutationField schema root mutation = .ok (some field)) : ∃ t ∈ schema.types, field ∈ t.details.fields := by
  unfold mutationField at h
  cases hd : schema.details? root with
  | none =>
    rw [hd] at h
    cases h
  | some details =>
    obtain ⟨t, ht, -, htype⟩ := Schema.exists_type_of_details? hd
    rw [hd] at h
    cases details with
    | object interfaces fields | interface interfaces fields =>
      obtain ⟨name, -, hname⟩ := of_labelled h
      exact ⟨t, ht, by rw [htype]; exact List.mem_of_find?_eq_some hname⟩
    | input fields isOneOf =>
      obtain ⟨found, -, hrest⟩ := bind_eq_ok_iff.1 h
      cases found <;> cases hrest
    | scalar | union | enum => cases h

/-- An output is checked against the type of the argument that is found. -/
theorem checkOutput_of_found (h : argumentType schema mutation parameter = .ok (.ok type)) (output : Json) :
    checkOutput schema output mutation parameter =
      .ok ⟨mutation, (GraphQL.misfits schema type output).map Misfit.message, some type.text⟩ := by
  rw [checkOutput, h]
  rfl

/-- The argument that takes an output has an input type. -/
theorem isInputType_of_argumentType (hi : schema.TakesInputs)
    (h : argumentType schema mutation parameter = .ok (.ok type)) : schema.isInputType type = true := by
  unfold argumentType at h
  cases hroot : schema.mutation with
  | none =>
    rw [hroot] at h
    cases h
  | some root =>
    rw [hroot] at h
    obtain ⟨field?, hfield, hrest⟩ := bind_eq_ok_iff.1 h
    cases field? with
    | none => cases hrest
    | some field =>
      obtain ⟨argument?, hargument, hdone⟩ := bind_eq_ok_iff.1 hrest
      cases argument? with
      | none => cases hdone
      | some argument =>
        cases hdone
        obtain ⟨t, ht, hmem⟩ := exists_of_mutationField hfield
        obtain ⟨name, -, hname⟩ := of_labelled hargument
        exact hi.isInputType_argument ht hmem (List.mem_of_find?_eq_some hname)

/-- Positions of failures are made of names and indexes. -/
theorem isWord_of_reports (hi : schema.TakesInputs) (h : Reports schema type value p c w) : ∀ s ∈ p, IsWord s := by
  induction h with
  | null | missing | unknown | choice | notObject | leaf => simp
  | nonNull _ _ ih | alone _ _ _ ih => exact ih
  | item _ _ ih => exact List.forall_mem_cons.2 ⟨trivial, ih⟩
  | field known mem _ _ ih => exact List.forall_mem_cons.2 ⟨hi.isName known mem, ih⟩
  | nullGiven known only | nullFilled known only =>
    rw [List.forall_mem_singleton]
    exact hi.isName known (GraphQL.mem_of_filled only)

/-- Where the object lacks the field, its name leads nowhere. -/
theorem follow?_eq_none_of_leadsToFilledNull (h : LeadsToFilledNull schema value p) :
    follow? value (p.map stepText) = none := by
  obtain ⟨q, entries, name, fields, f, rfl, hq, -, -, absent, -⟩ := h
  rw [List.map_append, follow?_append, follow?_of_get? hq]
  simp [follow?, stepText, absent]

/-- **A message about a failure points at the value that fails**, unless it points out of an object that was filled. -/
theorem quotedEnd_of_reports (hi : schema.TakesInputs) (h : Reports schema type value p c w) :
    ∃ text, quotedEnd (Misfit.mk p c).message = some text ∧
      (¬ LeadsToFilledNull schema value p → follow? value (dotted text) = some w) ∧
      (LeadsToFilledNull schema value p → w = .null ∧ follow? value (dotted text) = none) := by
  have hwords := isWord_of_reports hi h
  refine ⟨pathText p, quotedEnd_message hwords c, ?_⟩
  rw [dotted_pathText hwords]
  rcases h.get? with hget | ⟨rfl, hfilled⟩
  · have hfollow := follow?_of_get? hget
    refine ⟨fun _ => hfollow, fun hfilled => ?_⟩
    rw [follow?_eq_none_of_leadsToFilledNull hfilled] at hfollow
    cases hfollow
  · exact ⟨fun hno => absurd hfilled hno, fun _ => ⟨rfl, follow?_eq_none_of_leadsToFilledNull hfilled⟩⟩

end

/-- **The errors of an output point at what is wrong.** Where the argument is found, the errors are those that coercion
reports. Each ends with a quoted text that leads to the value which it is about, or, where an object is filled with
null, to the field that the object lacks. Different positions have different texts, and there are no errors if and only
if the output is a value of the argument's type. -/
theorem output_errors_point {schema : Schema} (hi : schema.TakesInputs) {mutation parameter : Json} {type : TypeRef}
    (hfound : argumentType schema mutation parameter = .ok (.ok type)) (output : Json) :
    ∃ result, checkOutput schema output mutation parameter = .ok result ∧
      (∀ e, e ∈ result.errors ↔ ∃ p c w, Reports schema type output p c w ∧ e = (Misfit.mk p c).message) ∧
      (∀ p c w, Reports schema type output p c w → ∃ text, quotedEnd (Misfit.mk p c).message = some text ∧
        (¬ LeadsToFilledNull schema output p → follow? output (dotted text) = some w) ∧
        (LeadsToFilledNull schema output p → w = .null ∧ follow? output (dotted text) = none)) ∧
      (∀ p c w p' c' w', Reports schema type output p c w → Reports schema type output p' c' w' →
        quotedEnd (Misfit.mk p c).message = quotedEnd (Misfit.mk p' c').message → p = p') ∧
      (result.errors = [] ↔ Satisfies schema type output) := by
  refine ⟨_, checkOutput_of_found hfound output, fun e => ?_, fun p c w h => quotedEnd_of_reports hi h, ?_, ?_⟩
  · rw [List.mem_map]
    constructor
    · rintro ⟨m, hm, rfl⟩
      obtain ⟨p, c, w, h, rfl⟩ := GraphQL.mem_misfitsAt_iff.1 hm
      exact ⟨p, c, w, h, rfl⟩
    · rintro ⟨p, c, w, h, rfl⟩
      exact ⟨⟨p, c⟩, GraphQL.mem_misfitsAt_iff.2 ⟨p, c, w, h, rfl⟩, rfl⟩
  · intro p c w p' c' w' h h' heq
    have hwords := isWord_of_reports hi h
    have hwords' := isWord_of_reports hi h'
    rw [quotedEnd_message hwords, quotedEnd_message hwords'] at heq
    exact pathText_injective hwords hwords' (Option.some.inj heq)
  · rw [List.map_eq_nil_iff]
    exact GraphQL.misfitsAt_eq_nil_iff_satisfies hi (isInputType_of_argumentType hi hfound)

/-! ## An order and a choice -/

/-- Orders have items, each with an identifier and a number. -/
def orderSchema : Schema where
  types :=
    ⟨"Query", .object [] [⟨"order", .named "Int", []⟩]⟩ ::
    ⟨"Mutation", .object [] [⟨"save", .named "Int", [⟨"result", .named "Order", none, false⟩]⟩]⟩ ::
    ⟨"Order", .input [⟨"items", .nonNull (.list (.nonNull (.named "Item"))), none, false⟩] false⟩ ::
    ⟨"Item", .input [⟨"id", .nonNull (.named "ID"), none, false⟩,
      ⟨"count", .nonNull (.named "Int"), some (.int "1"), false⟩] false⟩ ::
    GraphQL.Standard.types
  query := some "Query"
  mutation := some "Mutation"
  subscription := none
  directives := GraphQL.Standard.directives

theorem takesInputs_orderSchema : orderSchema.TakesInputs where
  typed := by decide +kernel
  named := by decide +kernel

/-- An order whose second item has a word for a number. -/
def order : Json :=
  .obj [("items", .arr [.obj [("id", .str "a")], .obj [("id", .str "b"), ("count", .str "two")]])]

/-- The error of the order points at the word. -/
theorem order_error_points_at_count : orderSchema.TakesInputs ∧
    argumentType orderSchema (.str "save") (.str "result") = .ok (.ok (.named "Order")) ∧
    ∃ result, checkOutput orderSchema order (.str "save") (.str "result") = .ok result ∧
      (∃ e ∈ result.errors, ∃ text, quotedEnd e = some text ∧ follow? order (dotted text) = some (.str "two")) ∧
      ¬ Satisfies orderSchema (.named "Order") order := by
  have hfound : argumentType orderSchema (.str "save") (.str "result") = .ok (.ok (.named "Order")) := rfl
  obtain ⟨result, hcheck, hmem, hpoint, -, hsatisfies⟩ := output_errors_point takesInputs_orderSchema hfound order
  have hreports : Reports orderSchema (.named "Order") order [.key "items", .index 1, .key "count"]
      (.notInteger (.str "two")) (.str "two") := by
    have horder : orderSchema.details? "Order" =
        some (.input [⟨"items", .nonNull (.list (.nonNull (.named "Item"))), none, false⟩] false) := rfl
    have hitem : orderSchema.details? "Item" = some (.input [⟨"id", .nonNull (.named "ID"), none, false⟩,
        ⟨"count", .nonNull (.named "Int"), some (.int "1"), false⟩] false) := rfl
    have hcount : Reports orderSchema (.nonNull (.named "Int")) (.str "two") [] (.notInteger (.str "two"))
        (.str "two") := .nonNull (by simp) (.leaf (by simp) rfl rfl)
    refine .field horder (List.mem_singleton_self _) rfl (.nonNull (by simp) (.item (i := 1) rfl ?_))
    exact .nonNull (by simp) (.field hitem (List.mem_cons_of_mem _ (List.mem_singleton_self _)) rfl hcount)
  have herror := (hmem _).2 ⟨_, _, _, hreports, rfl⟩
  obtain ⟨text, htext, hplace, -⟩ := hpoint _ _ _ hreports
  refine ⟨takesInputs_orderSchema, hfound, result, hcheck, ⟨_, herror, text, htext, hplace fun hfilled => ?_⟩, ?_⟩
  · have hget : order.get? [.key "items", .index 1, .key "count"] = some (.str "two") := by
      simp [order, Json.get?, Json.lookup]
    have hnone := follow?_eq_none_of_leadsToFilledNull hfilled
    rw [follow?_of_get? hget] at hnone
    cases hnone
  · rw [← hsatisfies]
    exact List.ne_nil_of_mem herror

/-- A choice has one field, which null fills. -/
def choiceSchema : Schema where
  types :=
    ⟨"Query", .object [] [⟨"choice", .named "Int", []⟩]⟩ ::
    ⟨"Mutation", .object [] [⟨"save", .named "Int", [⟨"result", .named "Choice", none, false⟩]⟩]⟩ ::
    ⟨"Choice", .input [⟨"count", .named "Int", some .null, false⟩] true⟩ ::
    GraphQL.Standard.types
  query := some "Query"
  mutation := some "Mutation"
  subscription := none
  directives := GraphQL.Standard.directives

/-- **An error need not point into the output**: null that fills a field has no place there. -/
theorem filled_null_has_no_place :
    ¬ ∀ (schema : Schema) (output mutation parameter : Json) (type : TypeRef) (result : OutputResult),
      schema.TakesInputs → argumentType schema mutation parameter = .ok (.ok type) →
      checkOutput schema output mutation parameter = .ok result →
      ∀ e ∈ result.errors, ∃ text value, quotedEnd e = some text ∧ follow? output (dotted text) = some value := by
  intro hall
  have htakes : choiceSchema.TakesInputs := ⟨by decide +kernel, by decide +kernel⟩
  have hfound : argumentType choiceSchema (.str "save") (.str "result") = .ok (.ok (.named "Choice")) := rfl
  have hcheck : checkOutput choiceSchema (.obj []) (.str "save") (.str "result") =
      .ok ⟨.str "save", ["Field 'count' must be non-null. At \"count\""], some "Choice"⟩ := by
    have hknown : choiceSchema.details? "Choice" = some (.input [⟨"count", .named "Int", some .null, false⟩] true) := by
      rfl
    rw [checkOutput_of_found hfound, GraphQL.misfits, GraphQL.misfitsAt_input hknown]
    rfl
  obtain ⟨text, value, htext, hvalue⟩ := hall _ _ _ _ _ _ htakes hfound hcheck _ (List.mem_singleton_self _)
  have hcount : quotedEnd "Field 'count' must be non-null. At \"count\"" = some "count" := rfl
  rw [hcount] at htext
  cases htext
  have hnone : follow? (.obj []) (dotted "count") = none := rfl
  rw [hnone] at hvalue
  cases hvalue

end FixtureCheck.Fixture
