import FixtureCheck.GraphQL.Source
import FixtureCheck.Json.Access

/-!
# Why a schema cannot be built

`SchemaError` names the causes, `SchemaError.message` words them. A cause inside the fields, interfaces or members of a
type is told together with the type.
-/

namespace FixtureCheck.GraphQL

/-- The parts of a type that refer to other types. -/
inductive TypePart where
  | fields
  | interfaces
  | types
  deriving DecidableEq, Repr

/-- The name of a part. -/
def TypePart.text : TypePart → String
  | fields => "fields"
  | interfaces => "interfaces"
  | types => "types"

/-- Why a schema cannot be built. -/
inductive SchemaError where
  /-- The text is malformed, or a place in it is wrong. -/
  | fault (fault : Fault)
  /-- The document breaks rules. -/
  | rules (messages : List String)
  /-- A part of a type cannot be made. -/
  | unresolved (type : String) (part : TypePart) (cause : SchemaError)
  | notInterfaces (type : String)
  | notObjects (type : String)
  | fieldNotOutput
  | argumentNotInput
  | inputFieldNotInput
  | defaultNotInput (type : String)
  /-- The default of an input field needs itself. -/
  | endlessDefault
  /-- The schema is complete but not valid. -/
  | invalid (messages : List String)
  /-- A description of a schema has the wrong shape. -/
  | access (cause : Json.AccessError)
  /-- A description of a schema has the wrong contents. -/
  | description (message : String)

namespace SchemaError

/-- Is the cause one that a reader of GraphQL texts reports? -/
def isFault : SchemaError → Bool
  | fault _ => true
  | unresolved _ _ cause => cause.isFault
  | _ => false

/-- The cause in words, with the places it is about. -/
def message : SchemaError → String
  | fault f => f.fullText
  | rules messages | invalid messages => "\n\n".intercalate messages
  | unresolved type part cause => s!"{type} {part.text} cannot be resolved. {cause.message}"
  | notInterfaces type => s!"{type} interfaces must be specified as a collection of GraphQLInterfaceType instances."
  | notObjects type => s!"{type} types must be specified as a collection of GraphQLObjectType instances."
  | fieldNotOutput => "Field type must be an output type."
  | argumentNotInput => "Argument type must be a GraphQL input type."
  | inputFieldNotInput => "Input field type must be a GraphQL input type."
  | defaultNotInput type => s!"Unexpected input type: {type}."
  | endlessDefault => "maximum recursion depth exceeded"
  | access cause => cause.message
  | description message => message

/-- The fault without a place that a cause amounts to. -/
def asFault : SchemaError → Fault
  | fault f => f
  | cause => .plain cause.message

end SchemaError

/-- A plain message of a reader of GraphQL texts. -/
def SchemaError.plain (message : String) : SchemaError := .fault (.plain message)

end FixtureCheck.GraphQL
