import FixtureCheck.GraphQL.Syntax
import FixtureCheck.GraphQL.Token.Lexer

/-!
# Reading GraphQL documents

`parseDocument` reads a document, of queries and of type definitions alike; `parseValue` reads one literal. The readers
are recursive descents over the tokens. A fault of the token stream comes up when the token before it is taken.

Lists and nested constructs are read with a bound, the number of tokens in the text: every repetition and every level of
nesting takes a token.
-/

namespace FixtureCheck.GraphQL

namespace Parser

/-- What a reader knows: the text, and a bound on the number of its tokens. -/
structure Context where
  source : List Char
  bound : Nat

/-- A reader: it takes tokens from the front of the stream, or finds a fault. -/
abbrev Reader := ReaderT Context (StateT TokenStream (Except Fault))

/-! ## Tokens -/

/-- The next token. -/
def peek : Reader Token := do
  match ← get with
  | .done t => return t
  | .more t _ => return t
  | .fault f => throw f

/-- Takes the next token; a fault behind it comes up at once. -/
def advance : Reader Token := do
  match ← get with
  | .done t => return t
  | .fault f => throw f
  | .more t rest =>
    match rest with
    | .fault f => throw f
    | rest => set rest; return t

/-- The token after the next one. -/
def lookahead : Reader Token := do
  match ← get with
  | .more _ (.more t _) => return t
  | .more _ (.done t) => return t
  | .more _ (.fault f) => throw f
  | .done t => return t
  | .fault f => throw f

/-- Reports a malformed text at an offset. -/
def fail {α : Type} (offset : Nat) (description : String) : Reader α := do
  throw (.malformed (← read).source offset description)

/-- Reports a token that does not belong where it stands. -/
def unexpected {α : Type} (t : Token) : Reader α := fail t.offset s!"Unexpected {t.describe}."

/-- Is the next token the punctuator `text`? -/
def atPunctuator (text : String) : Reader Bool := do
  return (← peek).kind == .punctuator text

/-- Takes a token of a kind. -/
def expectKind (kind : TokenKind) : Reader Token := do
  let t ← peek
  if t.kind == kind then advance
  else fail t.offset s!"Expected {kind.describe}, found {t.describe}."

/-- Takes a punctuator. -/
def expect (text : String) : Reader Unit := do
  let _ ← expectKind (.punctuator text)

/-- Takes a punctuator if it comes next. -/
def skip (text : String) : Reader Bool := do
  if ← atPunctuator text then
    let _ ← advance
    return true
  else return false

/-- Takes a name. -/
def name : Reader String := return (← expectKind .name).value

/-- Is the next token the name `word`? -/
def atKeyword (word : String) : Reader Bool := do
  let t ← peek
  return t.kind == .name && t.value == word

/-- Takes the name `word`. -/
def keyword (word : String) : Reader Unit := do
  if ← atKeyword word then
    let _ ← advance
  else
    let t ← peek
    fail t.offset s!"Expected '{word}', found {t.describe}."

/-- Takes the name `word` if it comes next. -/
def skipKeyword (word : String) : Reader Bool := do
  if ← atKeyword word then
    let _ ← advance
    return true
  else return false

/-! ## Repetition -/

/-- Items up to a closing punctuator, which is taken; at most `n` of them. -/
def itemsUntil {α : Type} (item : Reader α) (close : String) : Nat → Reader (List α)
  | 0 => return []
  | n + 1 => do
    if ← skip close then return []
    let a ← item
    return a :: (← itemsUntil item close n)

/-- Any number of items between punctuators. -/
def anyBetween {α : Type} (opening : String) (item : Reader α) (close : String) : Reader (List α) := do
  expect opening
  itemsUntil item close (← read).bound

/-- At least one item between punctuators. -/
def someBetween {α : Type} (opening : String) (item : Reader α) (close : String) : Reader (List α) := do
  expect opening
  let a ← item
  return a :: (← itemsUntil item close (← read).bound)

/-- At least one item between punctuators, or nothing. -/
def optionalBetween {α : Type} (opening : String) (item : Reader α) (close : String) : Reader (List α) := do
  if ← atPunctuator opening then someBetween opening item close else return []

/-- Items that `delimiter` separates; one may also come first. -/
def delimited {α : Type} (delimiter : String) (item : Reader α) : Reader (List α) := do
  let _ ← skip delimiter
  let a ← item
  return a :: (← more (← read).bound)
where
  /-- The items after the first one. -/
  more : Nat → Reader (List α)
    | 0 => return []
    | n + 1 => do
      if ← skip delimiter then
        let a ← item
        return a :: (← more n)
      else return []

/-! ## Values and types -/

/-- A variable's name behind its mark. -/
def variableName : Reader String := do
  expect "$"
  name

/-- Refuses a variable among literals. -/
def refuseVariable {α : Type} : Reader α := do
  let mark ← expectKind (.punctuator "$")
  let t ← peek
  if t.kind == .name then fail mark.offset s!"Unexpected variable '${t.value}' in constant value."
  else unexpected mark

/-- A literal, or a variable unless `isConst`, nested at most `n` levels. -/
def value (isConst : Bool) : Nat → Reader Value
  | 0 => do unexpected (← peek)
  | n + 1 => do
    let t ← peek
    match t.kind with
    | .punctuator "[" => return .list (← anyBetween "[" (value isConst n) "]")
    | .punctuator "\x7b" => return .object (← anyBetween "\x7b" (objectField n) "\x7d")
    | .punctuator "$" => if isConst then refuseVariable else return .variable (← variableName)
    | .int => let _ ← advance; return .int t.value
    | .float => let _ ← advance; return .float t.value
    | .string => let _ ← advance; return .string t.value false
    | .blockString => let _ ← advance; return .string t.value true
    | .name =>
      let _ ← advance
      match t.value with
      | "true" => return .boolean true
      | "false" => return .boolean false
      | "null" => return .null
      | other => return .enum other
    | _ => unexpected t
where
  /-- A field of an object literal. -/
  objectField (n : Nat) : Reader (String × Value) := do
    let key ← name
    expect ":"
    return (key, ← value isConst n)

/-- A value. -/
def anyValue (isConst : Bool) : Reader Value := do value isConst (← read).bound

/-- A type, nested at most `n` levels. -/
def typeRefWithin : Nat → Reader TypeRef
  | 0 => do unexpected (← peek)
  | n + 1 => do
    let inner ←
      if ← skip "[" then do
        let item ← typeRefWithin n
        expect "]"
        pure (TypeRef.list item)
      else pure (TypeRef.named (← name))
    if ← skip "!" then return .nonNull inner else return inner

/-- A type. -/
def typeRef : Reader TypeRef := do typeRefWithin (← read).bound

/-- An argument. -/
def argument (isConst : Bool) : Reader Argument := do
  let key ← name
  expect ":"
  let t ← peek
  return ⟨key, ← anyValue isConst, t.offset⟩

/-- Arguments between parentheses, if there are any. -/
def arguments (isConst : Bool) : Reader (List Argument) := optionalBetween "(" (argument isConst) ")"

/-- Directives in a row. -/
def directives (isConst : Bool) : Reader (List Directive) := do more (← read).bound
where
  /-- At most `n` directives. -/
  more : Nat → Reader (List Directive)
    | 0 => return []
    | n + 1 => do
      let t ← peek
      if ← skip "@" then
        let directiveName ← name
        let d : Directive := ⟨directiveName, ← arguments isConst, t.offset⟩
        return d :: (← more n)
      else return []

/-- A description, if a string comes next. -/
def description : Reader (Option Value) := do
  let t ← peek
  match t.kind with
  | .string => let _ ← advance; return some (.string t.value false)
  | .blockString => let _ ← advance; return some (.string t.value true)
  | _ => return none

/-! ## Queries -/

/-- The name of a fragment, which may not be `on`. -/
def fragmentName : Reader String := do
  if ← atKeyword "on" then unexpected (← peek) else name

/-- A selection, nested at most `n` levels. -/
def selection : Nat → Reader Selection
  | 0 => do unexpected (← peek)
  | n + 1 => do
    let nested : Reader (List Selection) := someBetween "\x7b" (selection n) "\x7d"
    if ← skip "..." then
      let conditional ← skipKeyword "on"
      if !conditional && (← peek).kind == .name then
        let fragment ← fragmentName
        return .spread fragment (← directives false)
      else
        let condition ← if conditional then some <$> name else pure none
        let ds ← directives false
        return .inline condition ds (← nested)
    else
      let first ← name
      let (aliasName, fieldName) ← if ← skip ":" then pure (some first, ← name) else pure (none, first)
      let as ← arguments false
      let ds ← directives false
      let inner ← if ← atPunctuator "\x7b" then nested else pure []
      return .field ⟨aliasName, fieldName, as, ds⟩ inner

/-- A selection set. -/
def selectionSet : Reader (List Selection) := do
  someBetween "\x7b" (selection (← read).bound) "\x7d"

/-- The keyword of an operation. -/
def operationKind : Reader OperationKind := do
  let t ← expectKind .name
  match t.value with
  | "query" => return .query
  | "mutation" => return .mutation
  | "subscription" => return .subscription
  | _ => unexpected t

/-- A variable definition. -/
def variableDefinition : Reader VariableDefinition := do
  let about ← description
  let varName ← variableName
  expect ":"
  let type ← typeRef
  let default? ← if ← skip "=" then some <$> anyValue true else pure none
  return ⟨about, varName, type, default?, ← directives true⟩

/-- An operation; without a keyword it is a query. -/
def operation : Reader Operation := do
  if ← atPunctuator "\x7b" then
    return ⟨none, .query, none, [], [], ← selectionSet⟩
  let about ← description
  let kind ← operationKind
  let operationName ← if (← peek).kind == .name then some <$> name else pure none
  let declared ← optionalBetween "(" variableDefinition ")"
  let ds ← directives false
  return ⟨about, kind, operationName, declared, ds, ← selectionSet⟩

/-- A fragment. -/
def fragment : Reader Fragment := do
  let about ← description
  keyword "fragment"
  let fragmentName ← fragmentName
  keyword "on"
  let condition ← name
  let ds ← directives false
  return ⟨about, fragmentName, condition, ds, ← selectionSet⟩

/-! ## Type systems -/

/-- A declared argument or input field. -/
def inputDefinition : Reader InputDefinition := do
  let about ← description
  let inputName ← name
  expect ":"
  let type ← typeRef
  let default? ← if ← skip "=" then some <$> anyValue true else pure none
  return ⟨about, inputName, type, default?, ← directives true⟩

/-- A declared field. -/
def fieldDefinition : Reader FieldDefinition := do
  let about ← description
  let fieldName ← name
  let as ← optionalBetween "(" inputDefinition ")"
  expect ":"
  let type ← typeRef
  return ⟨about, fieldName, as, type, ← directives true⟩

/-- A declared enum value; the literals that are no enum values are refused. -/
def enumValueDefinition : Reader EnumValueDefinition := do
  let about ← description
  let t ← peek
  if ["true", "false", "null"].contains t.value then
    fail t.offset s!"{t.describe} is reserved and cannot be used for an enum value."
  let valueName ← name
  return ⟨about, valueName, ← directives true⟩

/-- The interfaces a type implements. -/
def implemented : Reader (List String) := do
  if ← skipKeyword "implements" then delimited "&" name else return []

/-- Declared fields between braces, if there are any. -/
def fieldDefinitions : Reader (List FieldDefinition) := optionalBetween "\x7b" fieldDefinition "\x7d"

/-- A type after its keyword `word`; an extension has to say something. -/
def typeAfter (about : Option Value) (isExtension : Bool) (word : String) : Reader TypeDefinition := do
  keyword word
  let typeName ← name
  let interfaces ← if word == "type" || word == "interface" then implemented else pure []
  let ds ← directives true
  let body : TypeBody ←
    match word with
    | "scalar" => pure .scalar
    | "type" => TypeBody.object interfaces <$> fieldDefinitions
    | "interface" => TypeBody.interface interfaces <$> fieldDefinitions
    | "union" => if ← skip "=" then TypeBody.union <$> delimited "|" name else pure (.union [])
    | "enum" => TypeBody.enum <$> optionalBetween "\x7b" enumValueDefinition "\x7d"
    | _ => TypeBody.input <$> optionalBetween "\x7b" inputDefinition "\x7d"
  let saysNothing := ds.isEmpty &&
    match body with
    | .scalar => true
    | .object is fs => is.isEmpty && fs.isEmpty
    | .interface is fs => is.isEmpty && fs.isEmpty
    | .union ms => ms.isEmpty
    | .enum vs => vs.isEmpty
    | .input fs => fs.isEmpty
  if isExtension && saysNothing then unexpected (← peek)
  return ⟨about, typeName, ds, body⟩

/-- A root type of a schema. -/
def rootType : Reader (OperationKind × String) := do
  let kind ← operationKind
  expect ":"
  return (kind, ← name)

/-- A schema definition. -/
def schemaDefinition : Reader SchemaDefinition := do
  let about ← description
  keyword "schema"
  let ds ← directives true
  return ⟨about, ds, ← someBetween "\x7b" rootType "\x7d"⟩

/-- The rest of a schema extension, which has to say something. -/
def schemaExtension : Reader SchemaDefinition := do
  keyword "schema"
  let ds ← directives true
  let roots ← optionalBetween "\x7b" rootType "\x7d"
  if ds.isEmpty && roots.isEmpty then unexpected (← peek)
  return ⟨none, ds, roots⟩

/-- A place a directive is declared for. -/
def directiveLocation : Reader String := do
  let t ← peek
  let place ← name
  if directiveLocations.contains place then return place else unexpected t

/-- A directive declaration. -/
def directiveDefinition : Reader DirectiveDefinition := do
  let about ← description
  keyword "directive"
  expect "@"
  let directiveName ← name
  let as ← optionalBetween "(" inputDefinition ")"
  let repeatable ← skipKeyword "repeatable"
  keyword "on"
  return ⟨about, directiveName, as, repeatable, ← delimited "|" directiveLocation⟩

/-- The keywords of type definitions. -/
def typeKeywords : List String := ["scalar", "type", "interface", "union", "enum", "input"]

/-- An extension. -/
def extension : Reader Definition := do
  let t ← lookahead
  if t.kind == .name && t.value == "schema" then
    keyword "extend"
    return .schemaExtension (← schemaExtension)
  else if t.kind == .name && typeKeywords.contains t.value then
    keyword "extend"
    return .typeExtension (← typeAfter none true t.value)
  else unexpected t

/-! ## Documents -/

/-- A definition; most may begin with a description. -/
def definition : Reader Definition := do
  if ← atPunctuator "\x7b" then return .operation (← operation)
  let first ← peek
  let described := first.kind == .string || first.kind == .blockString
  let t ← if described then lookahead else pure first
  if described && t.kind == .punctuator "\x7b" then
    fail first.offset "Unexpected description, descriptions are not supported on shorthand queries."
  if t.kind == .name then
    if typeKeywords.contains t.value then
      let about ← description
      return .type (← typeAfter about false t.value)
    match t.value with
    | "schema" => return .schema (← schemaDefinition)
    | "directive" => return .directive (← directiveDefinition)
    | "query" | "mutation" | "subscription" => return .operation (← operation)
    | "fragment" => return .fragment (← fragment)
    | word =>
      if described then
        fail first.offset "Unexpected description, only GraphQL definitions support descriptions."
      if word == "extend" then extension else unexpected t
  else unexpected t

/-- Definitions up to the end of the text, at most `n` of them. -/
def definitions : Nat → Reader Document
  | 0 => return []
  | n + 1 => do
    let d ← definition
    if (← peek).kind == .endOfText then return [d]
    return d :: (← definitions n)

/-- The first thing a reader does: a text that begins with a fault has no tokens. -/
def run {α : Type} (text : String) (reader : Reader α) : Except Fault α := do
  let source := text.toList
  let (a, _) ← (reader.run ⟨source, source.length + 1⟩).run (tokenize source)
  return a

end Parser

/-- Reads a document. -/
def parseDocument (text : String) : Except Fault Document :=
  Parser.run text do Parser.definitions (← read).bound

/-- Reads one literal, which may hold variables. -/
def parseValue (text : String) : Except Fault Value :=
  Parser.run text do
    let v ← Parser.anyValue false
    let _ ← Parser.expectKind .endOfText
    return v

/-- Reads one type. -/
def parseTypeRef (text : String) : Except Fault TypeRef :=
  Parser.run text do
    let t ← Parser.typeRef
    let _ ← Parser.expectKind .endOfText
    return t

end FixtureCheck.GraphQL
