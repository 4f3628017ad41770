import FixtureCheck.GraphQL.BlockString
import FixtureCheck.GraphQL.Syntax

/-!
# Printing GraphQL documents

`printDocument` writes a document in its usual form: two blanks of indentation, one selection a line, definitions
separated by blank lines. The arguments of a field go on lines of their own when the line would be longer than 80
characters, those of a declared field when one of them already spans lines.
-/

namespace FixtureCheck.GraphQL

/-- The longest line that keeps its arguments. -/
def maxLineLength : Nat := 80

/-- Non-empty texts with a separator between them. -/
def joinTexts (separator : String) (texts : List String) : String :=
  separator.intercalate (texts.filter (!·.isEmpty))

/-- A text between two others, or nothing when it is empty. -/
def wrapText (before : String) (text : String) (after : String) : String :=
  if text.isEmpty then "" else before ++ text ++ after

/-- A text moved right by two blanks. -/
def indentText (text : String) : String :=
  wrapText "  " (text.replace "\n" "\n  ") ""

/-- Texts on lines of their own between braces, or nothing when there are none. -/
def blockOf (items : List String) : String :=
  wrapText "\x7b\n" (indentText (joinTexts "\n" items)) "\n\x7d"

/-- Does a text span lines? -/
def isMultiline (text : String) : Bool := text.toList.contains '\n'

/-! ## Values and types -/

/-- One character of a string literal. -/
def printChar (c : Char) : List Char :=
  match c with
  | '"' => ['\\', '"']
  | '\\' => ['\\', '\\']
  | '\x08' => ['\\', 'b']
  | '\t' => ['\\', 't']
  | '\n' => ['\\', 'n']
  | '\x0c' => ['\\', 'f']
  | '\r' => ['\\', 'r']
  | c =>
    let n := c.toNat
    if n < 0x20 || (0x7f ≤ n && n ≤ 0x9f) then
      let digits := (Nat.toDigits 16 n).map Char.toUpper
      '\\' :: 'u' :: (List.replicate (4 - digits.length) '0' ++ digits)
    else [c]

/-- A string literal. -/
def printString (s : String) : String := String.ofList ('"' :: s.toList.flatMap printChar ++ ['"'])

mutual

/-- A literal or a variable. -/
def printValue : Value → String
  | .variable name => "$" ++ name
  | .int digits => digits
  | .float digits => digits
  | .string value true => String.ofList (printBlock value.toList)
  | .string value false => printString value
  | .boolean true => "true"
  | .boolean false => "false"
  | .null => "null"
  | .enum name => name
  | .list items => "[" ++ ", ".intercalate (printValues items) ++ "]"
  | .object fields => "\x7b" ++ ", ".intercalate (printObjectFields fields) ++ "\x7d"

/-- The items of a list literal. -/
def printValues : List Value → List String
  | [] => []
  | value :: values => printValue value :: printValues values

/-- The fields of an object literal. -/
def printObjectFields : List (String × Value) → List String
  | [] => []
  | (name, value) :: fields => (name ++ ": " ++ printValue value) :: printObjectFields fields

end

/-- An argument. -/
def printArgument (a : Argument) : String := a.name ++ ": " ++ printValue a.value

/-- A directive. -/
def printDirective (d : Directive) : String :=
  "@" ++ d.name ++ wrapText "(" (joinTexts ", " (d.arguments.map printArgument)) ")"

/-- Directives in a row. -/
def printDirectives (ds : List Directive) : String := joinTexts " " (ds.map printDirective)

/-- A description above what it describes. -/
def printDescription (description : Option Value) : String :=
  match description with
  | none => ""
  | some value => wrapText "" (printValue value) "\n"

/-! ## Queries -/

/-- A field without its sub-selections. -/
def printField (f : Field) : String :=
  let head := wrapText "" (f.aliasName.getD "") ": " ++ f.name
  let arguments := f.arguments.map printArgument
  let line := head ++ wrapText "(" (joinTexts ", " arguments) ")"
  if line.length > maxLineLength then head ++ wrapText "(\n" (indentText (joinTexts "\n" arguments)) "\n)" else line

mutual

/-- A selection. -/
def printSelection : Selection → String
  | .field f selections =>
    joinTexts " " [printField f, printDirectives f.directives, blockOf (printSelections selections)]
  | .spread fragment directives => "..." ++ fragment ++ wrapText " " (printDirectives directives) ""
  | .inline condition directives selections =>
    joinTexts " " ["...", wrapText "on " (condition.getD "") "", printDirectives directives,
      blockOf (printSelections selections)]

/-- The selections of a selection set. -/
def printSelections : List Selection → List String
  | [] => []
  | selection :: selections => printSelection selection :: printSelections selections

end

/-- A variable definition. -/
def printVariable (v : VariableDefinition) : String :=
  printDescription v.description ++ "$" ++ v.name ++ ": " ++ v.type.text ++
    wrapText " = " ((v.default?.map printValue).getD "") "" ++ wrapText " " (printDirectives v.directives) ""

/-- An operation; a query that has only selections is written as those. -/
def printOperation (o : Operation) : String :=
  let declared := o.variableDefinitions.map printVariable
  let inBrackets :=
    if declared.any isMultiline then wrapText "(\n" (joinTexts "\n" declared) "\n)"
    else wrapText "(" (joinTexts ", " declared) ")"
  let head := printDescription o.description ++
    joinTexts " " [o.kind.text, joinTexts "" [o.name.getD "", inBrackets], printDirectives o.directives]
  (if head == "query" then "" else head ++ " ") ++ blockOf (printSelections o.selections)

/-- A fragment. -/
def printFragment (f : Fragment) : String :=
  printDescription f.description ++ "fragment " ++ f.name ++ " on " ++ f.condition ++ " " ++
    wrapText "" (printDirectives f.directives) " " ++ blockOf (printSelections f.selections)

/-! ## Type systems -/

/-- An argument or input field declaration. -/
def printInputDefinition (d : InputDefinition) : String :=
  printDescription d.description ++
    joinTexts " " [d.name ++ ": " ++ d.type.text, wrapText "= " ((d.default?.map printValue).getD "") "",
      printDirectives d.directives]

/-- Declared arguments between parentheses. -/
def printArgumentDefinitions (ds : List InputDefinition) : String :=
  let texts := ds.map printInputDefinition
  if texts.any isMultiline then wrapText "(\n" (indentText (joinTexts "\n" texts)) "\n)"
  else wrapText "(" (joinTexts ", " texts) ")"

/-- A field declaration. -/
def printFieldDefinition (d : FieldDefinition) : String :=
  printDescription d.description ++ d.name ++ printArgumentDefinitions d.arguments ++ ": " ++ d.type.text ++
    wrapText " " (printDirectives d.directives) ""

/-- An enum value declaration. -/
def printEnumValue (d : EnumValueDefinition) : String :=
  printDescription d.description ++ joinTexts " " [d.name, printDirectives d.directives]

/-- The interfaces a type implements. -/
def printInterfaces (names : List String) : String :=
  wrapText "implements " (joinTexts " & " names) ""

/-- A type definition, headed by `lead`, which is empty or says that it is an extension. -/
def printType (lead : String) (d : TypeDefinition) : String :=
  let directives := printDirectives d.directives
  printDescription d.description ++ lead ++
    match d.body with
    | .scalar => joinTexts " " ["scalar", d.name, directives]
    | .object interfaces fields =>
      joinTexts " " ["type", d.name, printInterfaces interfaces, directives, blockOf (fields.map printFieldDefinition)]
    | .interface interfaces fields =>
      joinTexts " " ["interface", d.name, printInterfaces interfaces, directives,
        blockOf (fields.map printFieldDefinition)]
    | .union members =>
      joinTexts " " ["union", d.name, directives, wrapText "= " (joinTexts " | " members) ""]
    | .enum values => joinTexts " " ["enum", d.name, directives, blockOf (values.map printEnumValue)]
    | .input fields => joinTexts " " ["input", d.name, directives, blockOf (fields.map printInputDefinition)]

/-- A schema definition or extension. -/
def printSchema (lead : String) (d : SchemaDefinition) : String :=
  printDescription d.description ++
    joinTexts " " [lead, printDirectives d.directives,
      blockOf (d.roots.map fun (kind, name) => kind.text ++ ": " ++ name)]

/-- A directive declaration. -/
def printDirectiveDefinition (d : DirectiveDefinition) : String :=
  printDescription d.description ++ "directive @" ++ d.name ++ printArgumentDefinitions d.arguments ++
    (if d.repeatable then " repeatable" else "") ++ " on " ++ joinTexts " | " d.locations

/-- A definition. -/
def printDefinition : Definition → String
  | .operation o => printOperation o
  | .fragment f => printFragment f
  | .schema d => printSchema "schema" d
  | .schemaExtension d => printSchema "extend schema" d
  | .type d => printType "" d
  | .typeExtension d => printType "extend " d
  | .directive d => printDirectiveDefinition d

/-- A document. -/
def printDocument (document : Document) : String :=
  joinTexts "\n\n" (document.map printDefinition)

end FixtureCheck.GraphQL
