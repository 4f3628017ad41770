import FixtureCheck.Fixture.Walk
import FixtureCheck.GraphQL.Inlining

/-!
# Checking a fixture

`check` compares a fixture with an operation of a document. It fails if fragments cannot be inlined or no operation is
determined; otherwise it lists the mismatches of the walk and then the keys that nothing expects, or tells that the walk
was aborted.
-/

namespace FixtureCheck.Fixture

open GraphQL (Schema Document Operation OperationKind InliningError)

/-- Why a fixture cannot be compared with a document. -/
inductive CheckError where
  | inlining (cause : InliningError)
  | unknownOperation (name : String)
  | noSingleOperation
  | subscription
  | noRootType (operation : OperationKind)

/-- The message about an error. -/
def CheckError.message : CheckError → String
  | inlining cause => cause.message
  | unknownOperation name => s!"Unknown operation named '{name}'"
  | noSingleOperation => "Document must contain exactly one operation, or an operation name must be given"
  | subscription => "Subscriptions cannot be validated against fixtures"
  | noRootType operation => s!"Schema does not define a {operation.text} root type"

/-- The operation of a name, or the only one if no name is given. -/
def operation? (document : Document) (name : Option String) : Option Operation :=
  let all := GraphQL.operations document
  match name with
  | some name => all.find? (·.name == some name)
  | none =>
    match all with
    | [o] => some o
    | _ => none

/-- The operation of a name, or the only one. -/
def selectOperation (document : Document) (name : Option String) : Except CheckError Operation :=
  match operation? document name with
  | some o => .ok o
  | none =>
    match name with
    | none | some "" => .error .noSingleOperation
    | some name => .error (.unknownOperation name)

/-- The type an operation starts from. -/
def rootType (schema : Schema) (operation : Operation) : Except CheckError String :=
  match operation.kind with
  | .subscription => .error .subscription
  | kind => (schema.root? kind).elim (.error (.noRootType kind)) .ok

/-- What is wrong with a fixture. -/
structure CheckResult where
  errors : List String
  /-- Could the comparison not be finished, on account of the query? The last error says why. -/
  aborted : Bool
  deriving DecidableEq, Repr

/-- Is nothing wrong? -/
def CheckResult.isValid (r : CheckResult) : Bool := r.errors.isEmpty

/-- The walk of an operation through a fixture. -/
def walkOperation (schema : Schema) (root : String) (operation : Operation) (fixture : Json) :
    Checking Expectation := do
  let values : List Located := if kindOf fixture = .object then [⟨[], fixture⟩] else []
  Checking.report <|
    if kindOf fixture = .object then [] else [.rootNotObject operation.kind (kindOf fixture)]
  walkSet schema operation.selections (Frame.forField schema values root none) (({} : Expectation).addObjects values)

/-- The result that a walk amounts to. -/
def CheckResult.ofWalk (walk : Checking Expectation) : CheckResult :=
  let errors := walk.errors.map (·.message)
  match walk.outcome with
  | .error cause => ⟨errors ++ [cause.message], true⟩
  | .ok e => ⟨errors ++ (extraFields e).map fun key => (Mismatch.extraField key).message, false⟩

/-- Compares a fixture with an operation of a document. -/
def check (schema : Schema) (document : Document) (fixture : Json) (name : Option String) :
    Except CheckError CheckResult := do
  let inlined ← (GraphQL.inline document).mapError .inlining
  let operation ← selectOperation inlined name
  let root ← rootType schema operation
  return .ofWalk (walkOperation schema root operation fixture)

end FixtureCheck.Fixture
