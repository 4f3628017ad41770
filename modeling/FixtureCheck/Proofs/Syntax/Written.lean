import FixtureCheck.GraphQL.Rule.Definition
import FixtureCheck.Proofs.Schema.WellFormed
import FixtureCheck.Proofs.Syntax.Reader

/-!
# Written documents

What readers of documents come to: the types and input fields of a document have names, and no type is written with two
marks for non-null in a row (`Document.IsWritten`, `isWritten_of_parseDocument`).
-/

namespace FixtureCheck.GraphQL

/-! ## Written types -/

/-- The fields that the part of an object or interface type declares. -/
def TypeBody.fields : TypeBody → List FieldDefinition
  | object _ fields | interface _ fields => fields
  | _ => []

/-- The fields that the part of an input object type declares. -/
def TypeBody.inputs : TypeBody → List InputDefinition
  | input fields => fields
  | _ => []

/-- Is what the part of a type declares as the grammar has it? -/
structure TypeBody.IsWritten (body : TypeBody) : Prop where
  proper : ∀ f ∈ body.fields, f.type.isProper = true
  inputs : ∀ d ∈ body.inputs, IsName d.name

/-- Is part of a type as the grammar has it? -/
structure TypeDefinition.IsWritten (t : TypeDefinition) : Prop where
  named : IsName t.name
  body : t.body.IsWritten

/-- Is the type that a definition defines or extends, if it does, as the grammar has it? -/
def Definition.IsWritten (d : Definition) : Prop := ∀ t ∈ d.typePart?, t.IsWritten

/-- **Are the types of a document as the grammar has them?** -/
def Document.IsWritten (document : Document) : Prop := ∀ d ∈ document, d.IsWritten

namespace Parser

/-! ## Values and types -/

theorem reads_variableName : Keeps variableName := (reads_expect "$").bind fun _ => reads_name.keeps

theorem reads_refuseVariable {α : Type} (P : α → Prop) : Reads refuseVariable P := by
  refine (reads_expectKind _).keeps.bind fun mark => reads_peek.keeps.bind fun t => .ite (fun _ => ?_) fun _ => ?_
  · exact reads_fail P _ _
  · exact reads_unexpected P mark

theorem reads_value (isConst : Bool) : ∀ n, Keeps (value isConst n)
  | 0 => by
    rw [value]
    exact reads_peek.keeps.bind fun t => reads_unexpected _ t
  | n + 1 => by
    have hfield : Keeps (value.objectField isConst n) := by
      rw [value.objectField]
      refine reads_name.keeps.bind fun key => (reads_expect ":").bind fun _ => ?_
      exact (reads_value isConst n).bind fun _ => .pure trivial
    rw [value]
    refine reads_peek.keeps.bind fun t => ?_
    split
    · exact (reads_anyBetween (reads_value isConst n) _ _).keeps.bind fun _ => .pure trivial
    · exact (reads_anyBetween hfield _ _).keeps.bind fun _ => .pure trivial
    · exact .ite (fun _ => reads_refuseVariable _) fun _ => reads_variableName.bind fun _ => .pure trivial
    · exact reads_advance.keeps.bind fun _ => .pure trivial
    · exact reads_advance.keeps.bind fun _ => .pure trivial
    · exact reads_advance.keeps.bind fun _ => .pure trivial
    · exact reads_advance.keeps.bind fun _ => .pure trivial
    · refine reads_advance.keeps.bind fun _ => ?_
      split <;> exact .pure trivial
    · exact reads_unexpected _ t

theorem reads_anyValue (isConst : Bool) : Keeps (anyValue isConst) :=
  (reads_read fun _ => trivial).bind fun context (_ : True) => reads_value isConst context.bound

/-- A type is written with at most one mark for non-null, behind a type without one. -/
theorem reads_typeRefWithin : ∀ n, Reads (typeRefWithin n) (·.isProper = true)
  | 0 => reads_peek.keeps.bind fun t => reads_unexpected _ t
  | n + 1 => by
    have hmark : ∀ inner : TypeRef, inner.isProper = true ∧ inner.isNonNull = false →
        Reads (do if ← skip "!" then return .nonNull inner else return inner) (·.isProper = true) := by
      rintro inner ⟨hp, hn⟩
      refine (reads_skip "!").bind fun marked => .ite (fun _ => .pure ?_) fun _ => .pure hp
      simp [TypeRef.isProper, hp, hn]
    rw [typeRefWithin]
    refine (reads_skip "[").bind fun opens => .ite (fun _ => ?_) fun _ => ?_
    · refine (reads_typeRefWithin n).bind fun item hp => (reads_expect "]").bind fun _ => ?_
      exact hmark (.list item) ⟨hp, rfl⟩
    · exact reads_name.keeps.bind fun name => hmark (.named name) ⟨rfl, rfl⟩

theorem reads_typeRef : Reads typeRef (·.isProper = true) :=
  (reads_read fun _ => trivial).bind fun context (_ : True) => reads_typeRefWithin context.bound

theorem reads_argument (isConst : Bool) : Keeps (argument isConst) := by
  refine reads_name.keeps.bind fun key => (reads_expect ":").bind fun _ => reads_peek.keeps.bind fun t => ?_
  exact (reads_anyValue isConst).bind fun _ => .pure trivial

theorem reads_arguments (isConst : Bool) : Keeps (arguments isConst) :=
  (reads_optionalBetween (reads_argument isConst) _ _).keeps

theorem reads_directives_more (isConst : Bool) : ∀ n, Keeps (directives.more isConst n)
  | 0 => .pure trivial
  | n + 1 => by
    refine reads_peek.keeps.bind fun t => (reads_skip "@").bind fun there => .ite (fun _ => ?_) fun _ => .pure trivial
    refine reads_name.keeps.bind fun name => (reads_arguments isConst).bind fun as => ?_
    exact (reads_directives_more isConst n).bind fun _ => .pure trivial

theorem reads_directives (isConst : Bool) : Keeps (directives isConst) :=
  (reads_read fun _ => trivial).bind fun context (_ : True) => reads_directives_more isConst context.bound

theorem reads_description : Keeps description := by
  refine reads_peek.keeps.bind fun t => ?_
  split
  · exact reads_advance.keeps.bind fun _ => .pure trivial
  · exact reads_advance.keeps.bind fun _ => .pure trivial
  · exact .pure trivial

/-! ## Queries -/

theorem reads_fragmentName : Keeps fragmentName := by
  refine (reads_atKeyword "on").bind fun there => .ite (fun _ => ?_) fun _ => reads_name.keeps
  exact reads_peek.keeps.bind fun t => reads_unexpected _ t

theorem reads_selection : ∀ n, Keeps (selection n)
  | 0 => by
    rw [selection]
    exact reads_peek.keeps.bind fun t => reads_unexpected _ t
  | n + 1 => by
    have hnested : Keeps (someBetween "\x7b" (selection n) "\x7d") :=
      (reads_someBetween (reads_selection n) _ _).keeps
    have hinline : ∀ condition, Keeps (do
        let ds ← directives false
        return Selection.inline condition ds (← someBetween "\x7b" (selection n) "\x7d")) := by
      intro condition
      exact (reads_directives false).bind fun ds => hnested.bind fun _ => .pure trivial
    have hfield : ∀ aliasName fieldName, Keeps (do
        let as ← arguments false
        let ds ← directives false
        let inner ← if ← atPunctuator "\x7b" then someBetween "\x7b" (selection n) "\x7d" else pure []
        return Selection.field ⟨aliasName, fieldName, as, ds⟩ inner) := by
      intro aliasName fieldName
      refine (reads_arguments false).bind fun as => (reads_directives false).bind fun ds => ?_
      refine (reads_atPunctuator _).bind fun opens => .ite (fun _ => ?_) fun _ => .pure trivial
      exact hnested.bind fun _ => .pure trivial
    rw [selection]
    refine (reads_skip "...").bind fun spreads => .ite (fun _ => ?_) fun _ => ?_
    · refine (reads_skipKeyword "on").bind fun conditional => ?_
      refine reads_peek.keeps.bind fun t => .ite (fun _ => ?_) fun _ => .ite (fun _ => ?_) fun _ => ?_
      · exact reads_fragmentName.bind fun fragment => (reads_directives false).bind fun _ => .pure trivial
      · exact (reads_name.keeps.map some).bind fun condition => hinline condition
      · exact hinline none
    · refine reads_name.keeps.bind fun first => (reads_skip ":").bind fun renamed => .ite (fun _ => ?_) fun _ => ?_
      · exact reads_name.keeps.bind fun fieldName => hfield (some first) fieldName
      · exact hfield none first

theorem reads_selectionSet : Keeps selectionSet :=
  (reads_read fun _ => trivial).bind fun context (_ : True) =>
    (reads_someBetween (reads_selection context.bound) _ _).keeps

theorem reads_operationKind : Keeps operationKind := by
  refine (reads_expectKind .name).keeps.bind fun t => ?_
  split
  · exact .pure trivial
  · exact .pure trivial
  · exact .pure trivial
  · exact reads_unexpected _ t

/-- The default of a variable, an argument or an input field, if there is one. -/
theorem reads_default {α : Type} {next : Option Value → Reader α} {P : α → Prop} (hn : ∀ value, Reads (next value) P) :
    Reads (do next (← if ← skip "=" then some <$> anyValue true else pure none)) P := by
  refine (reads_skip "=").bind fun given => .ite (fun _ => ?_) fun _ => hn none
  exact ((reads_anyValue true).map some).bind hn

theorem reads_variableDefinition : Keeps variableDefinition := by
  refine reads_description.bind fun about => reads_variableName.bind fun varName => ?_
  refine (reads_expect ":").bind fun _ => reads_typeRef.keeps.bind fun type => reads_default fun value => ?_
  exact (reads_directives true).bind fun _ => .pure trivial

theorem reads_operation : Keeps operation := by
  refine (reads_atPunctuator _).bind fun short => .ite (fun _ => ?_) fun _ => ?_
  · exact reads_selectionSet.bind fun _ => .pure trivial
  · refine reads_description.bind fun about => reads_operationKind.bind fun kind => reads_peek.keeps.bind fun t => ?_
    have hrest : ∀ name, Keeps (do
        let declared ← optionalBetween "(" variableDefinition ")"
        let ds ← directives false
        return Operation.mk about kind name declared ds (← selectionSet)) := by
      intro name
      refine (reads_optionalBetween reads_variableDefinition _ _).keeps.bind fun declared => ?_
      exact (reads_directives false).bind fun ds => reads_selectionSet.bind fun _ => .pure trivial
    exact .ite (fun _ => (reads_name.keeps.map some).bind hrest) fun _ => hrest none

theorem reads_fragment : Keeps fragment := by
  refine reads_description.bind fun about => (reads_keyword _).bind fun _ => reads_fragmentName.bind fun name => ?_
  refine (reads_keyword "on").bind fun _ => reads_name.keeps.bind fun condition => ?_
  exact (reads_directives false).bind fun ds => reads_selectionSet.bind fun _ => .pure trivial

/-! ## Type systems -/

theorem reads_inputDefinition : Reads inputDefinition (IsName ·.name) := by
  refine reads_description.bind fun about => reads_name.bind fun name hn => (reads_expect ":").bind fun _ => ?_
  refine reads_typeRef.keeps.bind fun type => reads_default fun value => ?_
  exact (reads_directives true).bind fun _ => .pure hn

theorem reads_fieldDefinition : Reads fieldDefinition (·.type.isProper = true) := by
  refine reads_description.bind fun about => reads_name.keeps.bind fun name => ?_
  refine (reads_optionalBetween reads_inputDefinition _ _).keeps.bind fun as => (reads_expect ":").bind fun _ => ?_
  exact reads_typeRef.bind fun type hp => (reads_directives true).bind fun _ => .pure hp

theorem reads_fieldDefinitions : Reads fieldDefinitions fun fields => ∀ f ∈ fields, f.type.isProper = true :=
  reads_optionalBetween reads_fieldDefinition _ _

theorem reads_enumValueDefinition : Keeps enumValueDefinition := by
  refine reads_description.bind fun about => reads_peek.keeps.bind fun t => .ite (fun _ => ?_) fun _ => ?_
  · exact (reads_fail (fun _ => True) _ _).bind fun _ _ => reads_name.keeps.bind fun name =>
      (reads_directives true).bind fun _ => .pure trivial
  · exact reads_name.keeps.bind fun name => (reads_directives true).bind fun _ => .pure trivial

theorem reads_implemented : Keeps implemented := by
  refine (reads_skipKeyword _).bind fun there => .ite (fun _ => ?_) fun _ => .pure trivial
  exact (reads_delimited reads_name "&").keeps

theorem reads_body {α : Type} {reader : Reader α} {P : α → Prop} (make : α → TypeBody) (h : Reads reader P)
    (hm : ∀ a, P a → (make a).IsWritten) : Reads (make <$> reader) TypeBody.IsWritten :=
  h.map hm

/-- **The types that readers come to have names, and fields whose types are written as they should be.** -/
theorem reads_typeAfter (about : Option Value) (isExtension : Bool) (word : String) :
    Reads (typeAfter about isExtension word) TypeDefinition.IsWritten := by
  refine (reads_keyword word).bind fun _ => reads_name.bind fun typeName hn => ?_
  refine Reads.ite_bind reads_implemented (.pure trivial) fun interfaces _ => (reads_directives true).bind fun ds => ?_
  have hfinish : ∀ (refused : Bool) (body : TypeBody), body.IsWritten → Reads (do
      if refused then unexpected (← peek)
      return (⟨about, typeName, ds, body⟩ : TypeDefinition)) TypeDefinition.IsWritten := by
    intro refused body hb
    refine .ite (fun _ => ?_) fun _ => .pure ⟨hn, hb⟩
    exact reads_peek.keeps.bind fun t => (reads_unexpected (fun _ => False) t).bind fun _ h => h.elim
  have hempty : ∀ {body : TypeBody}, body.fields = [] → body.inputs = [] → body.IsWritten :=
    fun hfields hinputs => ⟨by simp [hfields], by simp [hinputs]⟩
  -- only object and interface types have fields, only input object types have input fields
  split
  · exact hfinish _ .scalar (hempty rfl rfl)
  · have hbody := reads_body (.object interfaces) reads_fieldDefinitions fun _ hf => ⟨hf, by simp [TypeBody.inputs]⟩
    exact hbody.bind fun body hb => hfinish _ body hb
  · have hbody := reads_body (.interface interfaces) reads_fieldDefinitions fun _ hf => ⟨hf, by simp [TypeBody.inputs]⟩
    exact hbody.bind fun body hb => hfinish _ body hb
  · refine (reads_skip "=").bind fun equals => .ite (fun _ => ?_) fun _ => hfinish _ (.union []) (hempty rfl rfl)
    have hbody := reads_body .union (reads_delimited reads_name "|") fun _ _ => hempty rfl rfl
    exact hbody.bind fun body hb => hfinish _ body hb
  · have hvalues := reads_optionalBetween reads_enumValueDefinition "\x7b" "\x7d"
    have hbody := reads_body .enum hvalues fun _ _ => hempty rfl rfl
    exact hbody.bind fun body hb => hfinish _ body hb
  · have hinputs := reads_optionalBetween reads_inputDefinition "\x7b" "\x7d"
    have hbody := reads_body .input hinputs fun _ hi => ⟨by simp [TypeBody.fields], hi⟩
    exact hbody.bind fun body hb => hfinish _ body hb

theorem reads_rootType : Keeps rootType :=
  reads_operationKind.bind fun _ => (reads_expect ":").bind fun _ => reads_name.keeps.bind fun _ => .pure trivial

theorem reads_schemaDefinition : Keeps schemaDefinition := by
  refine reads_description.bind fun about => (reads_keyword _).bind fun _ => (reads_directives true).bind fun ds => ?_
  exact (reads_someBetween reads_rootType _ _).keeps.bind fun _ => .pure trivial

theorem reads_schemaExtension : Keeps schemaExtension := by
  refine (reads_keyword _).bind fun _ => (reads_directives true).bind fun ds => ?_
  refine (reads_optionalBetween reads_rootType _ _).keeps.bind fun roots => .ite (fun _ => ?_) fun _ => .pure trivial
  exact reads_peek.keeps.bind fun t => (reads_unexpected (fun _ => True) t).bind fun _ _ => .pure trivial

theorem reads_directiveLocation : Keeps directiveLocation := by
  refine reads_peek.keeps.bind fun t => reads_name.keeps.bind fun place => .ite (fun _ => .pure trivial) fun _ => ?_
  exact reads_unexpected _ t

theorem reads_directiveDefinition : Keeps directiveDefinition := by
  refine reads_description.bind fun about => (reads_keyword _).bind fun _ => (reads_expect "@").bind fun _ => ?_
  refine reads_name.keeps.bind fun name => (reads_optionalBetween reads_inputDefinition _ _).keeps.bind fun as => ?_
  refine (reads_skipKeyword _).bind fun repeatable => (reads_keyword "on").bind fun _ => ?_
  exact (reads_delimited reads_directiveLocation "|").keeps.bind fun _ => .pure trivial

/-! ## Documents -/

theorem isWritten_of_typePart? {d : Definition} (h : d.typePart? = none) : d.IsWritten := by
  simp [Definition.IsWritten, h]

theorem reads_extension : Reads extension Definition.IsWritten := by
  refine reads_lookahead.bind fun t => .ite (fun _ => ?_) fun _ => .ite (fun _ => ?_) fun _ => reads_unexpected _ t
  · exact (reads_keyword _).bind fun _ => reads_schemaExtension.bind fun _ => .pure (isWritten_of_typePart? rfl)
  · refine (reads_keyword _).bind fun _ => (reads_typeAfter none true t.value).bind fun definition hw => .pure ?_
    simpa [Definition.IsWritten, Definition.typePart?] using hw

theorem reads_definition : Reads definition Definition.IsWritten := by
  refine (reads_atPunctuator _).bind fun short => .ite (fun _ => ?_) fun _ => reads_peek.keeps.bind fun first => ?_
  · exact reads_operation.bind fun o => .pure (isWritten_of_typePart? rfl)
  · refine Reads.ite_bind reads_lookahead (.pure trivial) fun t _ => .ite (fun _ => ?_) fun _ => ?_
    · exact (reads_fail (fun _ => False) _ _).bind fun _ h => h.elim
    · refine .ite (fun _ => .ite (fun _ => ?_) fun _ => ?_) fun _ => reads_unexpected _ t
      · refine reads_description.bind fun about => ?_
        refine (reads_typeAfter about false t.value).bind fun definition hw => .pure ?_
        simpa [Definition.IsWritten, Definition.typePart?] using hw
      · split
        · exact reads_schemaDefinition.bind fun _ => .pure (isWritten_of_typePart? rfl)
        · exact reads_directiveDefinition.bind fun _ => .pure (isWritten_of_typePart? rfl)
        · exact reads_operation.bind fun _ => .pure (isWritten_of_typePart? rfl)
        · exact reads_operation.bind fun _ => .pure (isWritten_of_typePart? rfl)
        · exact reads_operation.bind fun _ => .pure (isWritten_of_typePart? rfl)
        · exact reads_fragment.bind fun _ => .pure (isWritten_of_typePart? rfl)
        · refine .ite (fun _ => ?_) fun _ => .ite (fun _ => reads_extension) fun _ => reads_unexpected _ t
          exact (reads_fail (fun _ => False) _ _).bind fun _ h => h.elim

theorem reads_definitions : ∀ n, Reads (definitions n) Document.IsWritten
  | 0 => .pure (by simp [Document.IsWritten])
  | n + 1 => by
    refine reads_definition.bind fun d hd => reads_peek.keeps.bind fun t => .ite (fun _ => .pure ?_) fun _ => ?_
    · exact List.forall_mem_cons.2 ⟨hd, by simp⟩
    · refine (reads_definitions n).bind fun rest hrest => .pure ?_
      exact List.forall_mem_cons.2 ⟨hd, hrest⟩

end Parser

/-- **Documents are written as the grammar has them.** -/
theorem isWritten_of_parseDocument {text : String} {document : Document} (h : parseDocument text = .ok document) :
    document.IsWritten := by
  unfold parseDocument Parser.run at h
  obtain ⟨⟨read, rest⟩, hread, hdone⟩ := bind_eq_ok_iff.1 h
  cases hdone
  have hreads : Parser.Reads (do Parser.definitions (← read).bound) Document.IsWritten :=
    (Parser.reads_read fun _ => trivial).bind fun context (_ : True) => Parser.reads_definitions context.bound
  exact (hreads.run (isNamed_tokenize text.toList) hread).1

end FixtureCheck.GraphQL
