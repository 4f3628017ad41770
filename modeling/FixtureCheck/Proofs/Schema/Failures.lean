import FixtureCheck.GraphQL.Schema.FromDocument
import FixtureCheck.Proofs.Except

/-!
# How schemas fail

Only errors of certain kinds come up when a result is put together of parts with such errors (`FailsOnlyWith`). The
check of a literal fails as the types do that it meets (`failsOnlyWith_fits`), and a draft as its parts
(`Draft.failsOnlyWith_schema`). So no schema of a text fails in the way in which descriptions of the wrong shape do
(`schemaOfText_ne_access`): what a text lacks is told as a fault of the text.
-/

namespace FixtureCheck.GraphQL

variable {ε ε' α β : Type} {P : ε → Prop}

/-- **Are all errors that can come up of a kind?** -/
def FailsOnlyWith (P : ε → Prop) (x : Except ε α) : Prop := ∀ e, x = .error e → P e

namespace FailsOnlyWith

theorem ok (a : α) : FailsOnlyWith P (.ok a) := by
  intro e h
  cases h

theorem error {e : ε} (h : P e) : FailsOnlyWith P (.error e : Except ε α) := by
  intro e' he
  cases he
  exact h

/-- What comes behind need only be looked at for the results that come up. -/
theorem bind_of_ok {x : Except ε α} {f : α → Except ε β} (hx : FailsOnlyWith P x)
    (hf : ∀ a, x = .ok a → FailsOnlyWith P (f a)) : FailsOnlyWith P (x >>= f) := by
  cases x with
  | error e => exact error (hx e rfl)
  | ok a => exact hf a rfl

theorem bind {x : Except ε α} {f : α → Except ε β} (hx : FailsOnlyWith P x) (hf : ∀ a, FailsOnlyWith P (f a)) :
    FailsOnlyWith P (x >>= f) :=
  bind_of_ok hx fun a _ => hf a

/-- Errors that are told in another way are of the kind of what is told. -/
theorem mapError {x : Except ε' α} {f : ε' → ε} (hf : ∀ e, P (f e)) : FailsOnlyWith P (x.mapError f) := by
  cases x with
  | error e => exact error (hf e)
  | ok a => exact ok a

theorem guard {c : Prop} [Decidable c] {e : ε} (a : α) (h : P e) :
    FailsOnlyWith P (if c then (.ok a : Except ε α) else .error e) := by
  split
  · exact ok a
  · exact error h

theorem mapM {f : α → Except ε β} : ∀ {as : List α}, (∀ a ∈ as, FailsOnlyWith P (f a)) → FailsOnlyWith P (as.mapM f)
  | [], _ => ok []
  | a :: as, h => by
    rw [List.mapM_cons]
    refine bind (h a List.mem_cons_self) fun b => ?_
    exact bind (mapM fun a' ha => h a' (List.mem_cons_of_mem a ha)) fun bs => ok _

theorem filterMapM {f : α → Except ε (Option β)} : ∀ {as : List α}, (∀ a ∈ as, FailsOnlyWith P (f a)) →
    FailsOnlyWith P (as.filterMapM f)
  | [], _ => ok []
  | a :: as, h => by
    rw [List.filterMapM_cons]
    refine bind (h a List.mem_cons_self) fun found => ?_
    have hrest := filterMapM fun a' ha => h a' (List.mem_cons_of_mem a ha)
    cases found with
    | none => exact hrest
    | some b => exact bind hrest fun bs => ok _

theorem foldlM {f : β → α → Except ε β} : ∀ {as : List α} {b : β}, (∀ a ∈ as, ∀ b, FailsOnlyWith P (f b a)) →
    FailsOnlyWith P (as.foldlM f b)
  | [], b, _ => ok b
  | a :: as, b, h => by
    rw [List.foldlM_cons]
    refine bind (h a List.mem_cons_self b) fun b' => ?_
    exact foldlM fun a' ha => h a' (List.mem_cons_of_mem a ha)

theorem allM {f : α → Except ε Bool} : ∀ {as : List α}, (∀ a ∈ as, FailsOnlyWith P (f a)) → FailsOnlyWith P (as.allM f)
  | [], _ => ok true
  | a :: as, h => by
    rw [List.allM]
    refine bind (h a List.mem_cons_self) fun b => ?_
    cases b with
    | false => exact ok false
    | true => exact allM fun a' ha => h a' (List.mem_cons_of_mem a ha)

theorem forIn {f : α → β → Except ε (ForInStep β)} : ∀ {as : List α} {b : β},
    (∀ a ∈ as, ∀ b, FailsOnlyWith P (f a b)) → FailsOnlyWith P (forIn as b f)
  | [], b, _ => ok b
  | a :: as, b, h => by
    rw [List.forIn_cons]
    refine bind (h a List.mem_cons_self b) fun step => ?_
    cases step with
    | done b => exact ok b
    | yield b => exact forIn fun a' ha => h a' (List.mem_cons_of_mem a ha)

end FailsOnlyWith

/-! ## Literals -/

/-- Are the errors of what is known about a type of a kind? -/
def LiteralType.FailsOnlyWith (P : ε → Prop) : LiteralType ε → Prop
  | .leaf _ => True
  | .input fields _ => GraphQL.FailsOnlyWith P fields
  | .other cause => P cause

/-- A literal is checked against a type. The fields of an input object are only looked at in an object literal, whose
parts are smaller. -/
theorem failsOnlyWith_fits {typeOf : String → LiteralType ε} (h : ∀ name, (typeOf name).FailsOnlyWith P)
    (type : TypeRef) (literal : Value) : FailsOnlyWith P (fits typeOf type literal) := by
  fun_induction fits typeOf type literal with
  | case1 | case3 | case6 | case7 | case8 | case11 | case13 => exact .ok _
  | case2 _ _ _ ih | case5 _ _ _ _ ih => exact ih
  | case4 type items ih => exact .allM fun item _ => ih item.1 item.2
  | case9 name entries cause htype | case12 name single _ _ _ cause htype =>
    have hcause := h name
    rw [htype] at hcause
    exact .error hcause
  | case10 name entries fields isOneOf htype nulls ih =>
    have hfields := h name
    rw [htype] at hfields
    refine .bind hfields fun fields => .bind (.forIn fun field _ state => ?_) fun state => ?_
    · dsimp only
      split
      · split
        · exact .ok _
        · split <;> exact .ok _
      next v hv _ =>
        refine .bind (ih field v hv) fun isValue => ?_
        split <;> exact .ok _
    · dsimp only
      split <;> exact .ok _

/-! ## Drafts -/

namespace DraftDetails

variable {P : SchemaError → Prop}

/-- Are the errors in the parts of a type of a kind? -/
def FailsOnlyWith (P : SchemaError → Prop) : DraftDetails → Prop
  | scalar | enum _ => True
  | object interfaces fields | interface interfaces fields =>
    GraphQL.FailsOnlyWith P interfaces ∧ GraphQL.FailsOnlyWith P fields
  | union members => GraphQL.FailsOnlyWith P members
  | input fields _ => GraphQL.FailsOnlyWith P fields

theorem failsOnlyWith_ofDetails (details : TypeDetails) : (ofDetails details).FailsOnlyWith P := by
  cases details with
  | scalar | enum => trivial
  | object | interface => exact ⟨.ok _, .ok _⟩
  | union | input => exact GraphQL.FailsOnlyWith.ok _

theorem FailsOnlyWith.details {d : DraftDetails} (h : d.FailsOnlyWith P) : GraphQL.FailsOnlyWith P d.details := by
  cases d with
  | scalar | enum => exact .ok _
  | object | interface => exact .bind h.1 fun _ => .bind h.2 fun _ => .ok _
  | union | input => exact .bind h fun _ => .ok _

theorem FailsOnlyWith.literalType {d : DraftDetails} {name : String} (h : d.FailsOnlyWith P)
    (hname : P (.defaultNotInput name)) : (d.literalType name).FailsOnlyWith P := by
  cases d with
  | scalar | enum => trivial
  | object | interface | union => exact hname
  | input => exact h

end DraftDetails

section

variable {P : SchemaError → Prop} {types : List (String × DraftDetails)}

theorem failsOnlyWith_of_draftDetails? (h : ∀ t ∈ types, t.2.FailsOnlyWith P) {name : String} {d : DraftDetails}
    (hd : draftDetails? types name = some d) : d.FailsOnlyWith P := by
  unfold draftDetails? at hd
  split at hd
  · cases hd
    exact DraftDetails.failsOnlyWith_ofDetails _
  · obtain ⟨before, after, rfl, -⟩ := List.lookup_eq_some_iff.1 hd
    exact h (name, d) (by simp)

theorem FailsOnlyWith.collectType {n : Nat} {state : Collection} {name : String}
    (h : FailsOnlyWith P (collectParts types n state name)) : FailsOnlyWith P (collectType types n state name) := by
  rw [GraphQL.collectType]
  split
  · exact ok _
  · exact h

/-- A type is collected with the types that it refers to: with the parts that are looked at, their errors come up. -/
theorem failsOnlyWith_collectParts (h : ∀ t ∈ types, t.2.FailsOnlyWith P) : ∀ (n : Nat) (state : Collection)
    (name : String), FailsOnlyWith P (collectParts types n state name)
  | 0, state, name => by
    rw [collectParts]
    exact .ok _
  | n + 1, state, name => by
    have htype : ∀ state name, FailsOnlyWith P (collectType types n state name) :=
      fun state name => .collectType (failsOnlyWith_collectParts h n state name)
    have hnames : ∀ {names : List String} {state : Collection},
        FailsOnlyWith P (names.foldlM (collectType types n) state) := .foldlM fun name _ state => htype state name
    have hinputs : ∀ {fields : List InputValue} {state : Collection},
        FailsOnlyWith P (fields.foldlM (fun state f => collectType types n state f.type.base) state) :=
      .foldlM fun f _ state => htype state f.type.base
    have houtputs : ∀ {fields : List OutputField} {state : Collection},
        FailsOnlyWith P (fields.foldlM (fun state f => do
          let state ← collectType types n state f.type.base
          f.arguments.foldlM (fun state a => collectType types n state a.type.base) state) state) :=
      .foldlM fun f _ state => .bind (htype state f.type.base) fun _ => hinputs
    rw [collectParts]
    split
    next members hd => exact .bind (failsOnlyWith_of_draftDetails? h hd) fun _ => hnames
    next interfaces fields hd =>
      have hparts := failsOnlyWith_of_draftDetails? h hd
      exact .bind hparts.1 fun _ => .bind hnames fun _ => .bind hparts.2 fun _ => houtputs
    next interfaces fields hd =>
      have hparts := failsOnlyWith_of_draftDetails? h hd
      exact .bind hparts.1 fun _ => .bind hnames fun _ => .bind hparts.2 fun _ => houtputs
    next fields isOneOf hd => exact .bind (failsOnlyWith_of_draftDetails? h hd) fun _ => hinputs
    next => exact .ok _

theorem failsOnlyWith_collectAll (h : ∀ t ∈ types, t.2.FailsOnlyWith P) (n : Nat) : ∀ (names : List String)
    (state : Collection), FailsOnlyWith P (collectAll types n state names)
  | [], _ => .ok _
  | name :: rest, _ =>
    .bind (failsOnlyWith_collectParts h n _ name) fun state => failsOnlyWith_collectAll h n rest state

/-- **A draft fails as its types do.** -/
theorem Draft.failsOnlyWith_schema {draft : Draft} (h : ∀ t ∈ draft.types, t.2.FailsOnlyWith P) :
    FailsOnlyWith P draft.schema := by
  unfold Draft.schema
  refine .bind (failsOnlyWith_collectAll h _ _ _) fun _ => ?_
  refine .bind (.foldlM fun name _ state => .collectType (failsOnlyWith_collectParts h _ state name)) fun _ => ?_
  refine .bind (.filterMapM fun name _ => ?_) fun types => .ok _
  split
  next d hd => exact .bind (failsOnlyWith_of_draftDetails? h hd).details fun _ => .ok _
  · exact .ok _

end

/-! ## Texts -/

/-- Is the error another one than the wrong shape of a description? -/
def SchemaError.IsOfText : SchemaError → Prop
  | .access _ => False
  | _ => True

namespace TypeSystem

open SchemaError (IsOfText)

variable (system : TypeSystem)

theorem failsOnlyWith_lift (reading : Except ArgumentMisuse α) : FailsOnlyWith IsOfText (system.lift reading) :=
  .mapError fun _ => trivial

theorem failsOnlyWith_inputFields (n : Nat) (definition : TypeDefinition) :
    FailsOnlyWith IsOfText (system.inputFields n definition) := by
  cases n with
  | zero =>
    rw [inputFields]
    exact .error trivial
  | succ n =>
    rw [inputFields]
    exact .mapError fun _ => trivial

theorem failsOnlyWith_literalType (n : Nat) (name : String) : (system.literalType n name).FailsOnlyWith IsOfText := by
  have hnotInput : IsOfText (.defaultNotInput name) := trivial
  rw [literalType]
  split
  · exact (DraftDetails.failsOnlyWith_ofDetails _).literalType hnotInput
  · split
    · exact trivial
    · exact trivial
    · exact system.failsOnlyWith_inputFields n _
    · exact hnotInput
  · exact hnotInput

theorem failsOnlyWith_arguments (ds : List InputDefinition) : FailsOnlyWith IsOfText (system.arguments ds) := by
  refine .mapM fun d _ => ?_
  have hrest : ∀ default?, FailsOnlyWith IsOfText (do
      let isDeprecated ← system.lift (isDeprecated d.directives)
      if system.isInput d.type then return ⟨d.name, d.type, default?, isDeprecated⟩
      else .error .argumentNotInput : Except SchemaError InputValue) :=
    fun default? => .bind (system.failsOnlyWith_lift _) fun _ => .guard _ trivial
  unfold inputValue
  dsimp only
  split
  · exact hrest none
  next literal _ =>
    refine .bind (failsOnlyWith_fits (system.failsOnlyWith_literalType _) _ literal) fun isValue => ?_
    split
    · exact hrest (some literal)
    · exact hrest none

theorem failsOnlyWith_draftDetails (d : TypeDefinition) : FailsOnlyWith IsOfText (system.draftDetails d) := by
  unfold draftDetails
  split
  · exact .ok _
  · split
    · exact .bind (system.failsOnlyWith_lift _) fun _ => .ok _
    · exact .ok _
    · exact .ok _
    · exact .ok _
    · refine .bind (.mapM fun v _ => ?_) fun _ => .ok _
      exact .bind (system.failsOnlyWith_lift _) fun _ => .ok _
    · exact .ok _

/-- The parts of a type are told together with the type. -/
theorem failsOnlyWith_of_draftDetails {d : TypeDefinition} {details : DraftDetails}
    (h : system.draftDetails d = .ok details) : details.FailsOnlyWith IsOfText := by
  have hfields : FailsOnlyWith IsOfText (system.outputFields d) := .mapError fun _ => trivial
  have hinterfaces : FailsOnlyWith IsOfText (system.interfaces d) := .guard _ trivial
  unfold draftDetails at h
  split at h
  · cases h
    exact DraftDetails.failsOnlyWith_ofDetails _
  · split at h
    · obtain ⟨_, -, h⟩ := bind_eq_ok_iff.1 h
      cases h
      trivial
    · cases h
      exact ⟨hinterfaces, hfields⟩
    · cases h
      exact ⟨hinterfaces, hfields⟩
    · cases h
      exact .guard _ trivial
    · obtain ⟨_, -, h⟩ := bind_eq_ok_iff.1 h
      cases h
      trivial
    · cases h
      exact system.failsOnlyWith_inputFields _ d

theorem failsOnlyWith_schema : FailsOnlyWith IsOfText system.schema := by
  have hdirectives : FailsOnlyWith IsOfText system.directives :=
    .mapM fun d _ => .bind (system.failsOnlyWith_arguments d.arguments) fun _ => .ok _
  unfold schema
  dsimp only
  split
  · have htypes : FailsOnlyWith IsOfText (system.definitions.mapM fun d => do
        return (d.name, ← system.draftDetails d)) :=
      .mapM fun d _ => .bind (system.failsOnlyWith_draftDetails d) fun _ => .ok _
    refine .bind_of_ok htypes fun types htypes => ?_
    refine .bind hdirectives fun own => Draft.failsOnlyWith_schema fun t ht => ?_
    obtain ⟨d, -, hd⟩ := mem_of_mapM htypes ht
    obtain ⟨details, hdetails, ht⟩ := bind_eq_ok_iff.1 hd
    cases ht
    exact system.failsOnlyWith_of_draftDetails hdetails
  · exact .error trivial

end TypeSystem

/-- **No schema of a text fails for the shape of a description.** -/
theorem schemaOfText_ne_access (text : String) (cause : Json.AccessError) :
    schemaOfText text ≠ .error (.access cause) := by
  have h : FailsOnlyWith SchemaError.IsOfText (schemaOfText text) :=
    .bind (.mapError fun _ => trivial) fun document => TypeSystem.failsOnlyWith_schema _
  exact fun herror => h _ herror

end FixtureCheck.GraphQL
