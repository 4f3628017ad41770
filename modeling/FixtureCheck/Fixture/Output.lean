import FixtureCheck.GraphQL.Coercion
import FixtureCheck.Json.Access

/-!
# Checking an output

An output is what is later passed to a mutation as one of its arguments. `checkOutput` looks the argument up and lists
where the output is no value of its type; that the argument cannot be found is an error of the output, too. The mutation
and the argument are labelled by values of any kind, since settings may hold any; only a text can be a name.
-/

namespace FixtureCheck.Fixture

open GraphQL (Schema OutputField TypeRef)

/-- What is wrong with an output. -/
inductive OutputError where
  | noMutationType
  | unknownMutation (name : String)
  | unknownParameter (name mutation : String)
  | misfit (misfit : GraphQL.Misfit)

/-- The message about an error. -/
def OutputError.message : OutputError → String
  | noMutationType => "Schema does not have a mutation type"
  | unknownMutation name => s!"Mutation '{name}' not found in schema"
  | unknownParameter name mutation => s!"Parameter '{name}' not found in mutation '{mutation}'"
  | misfit m => m.message

/-- The result of checking an output. -/
structure OutputResult where
  /-- The label of the mutation. -/
  mutation : Json
  errors : List String
  /-- The type of the argument, where it was found. -/
  type : Option String
  deriving Repr, Inhabited

/-- Is nothing wrong? -/
def OutputResult.isValid (r : OutputResult) : Bool := r.errors.isEmpty

/-- Why an output cannot be checked. -/
inductive OutputFailure where
  /-- The mutation root of a schema that is not valid has no fields with arguments. -/
  | unusableRoot (type : String)
  /-- The label is of a kind that nothing is looked up by. -/
  | label (cause : Json.AccessError)

/-- The message about a failure. -/
def OutputFailure.message : OutputFailure → String
  | unusableRoot type => s!"Type {type} has no fields with arguments."
  | label cause => cause.message

/-- The part that a label names, where `name?` finds the part of a name. -/
def labelled {α : Type} (name? : String → Option α) : Json → Except OutputFailure (Option α)
  | .str name => .ok (name? name)
  | label => (label.checkKey.mapError .label).map fun _ => none

/-- The field that a label names in a mutation root. -/
def mutationField (schema : Schema) (root : String) (label : Json) : Except OutputFailure (Option OutputField) :=
  match schema.details? root with
  | some (.object _ fields) | some (.interface _ fields) => labelled (fun name => fields.find? (·.name == name)) label
  | some (.input fields _) => do
    match ← labelled (fun name => fields.find? (·.name == name)) label with
    | none => return none
    | some _ => throw (.unusableRoot root)
  | _ => .error (.unusableRoot root)

/-- The type of the argument that takes an output. -/
def argumentType (schema : Schema) (mutation parameter : Json) : Except OutputFailure (Except OutputError TypeRef) := do
  match schema.mutation with
  | none => return .error .noMutationType
  | some root =>
    match ← mutationField schema root mutation with
    | none => return .error (.unknownMutation mutation.asText)
    | some field =>
      match ← labelled field.argument? parameter with
      | none => return .error (.unknownParameter parameter.asText mutation.asText)
      | some argument => return .ok argument.type

/-- Checks an output against an argument of a mutation. -/
def checkOutput (schema : Schema) (output mutation parameter : Json) : Except OutputFailure OutputResult := do
  match ← argumentType schema mutation parameter with
  | .error e => return ⟨mutation, [e.message], none⟩
  | .ok type =>
    return ⟨mutation, (GraphQL.misfits schema type output).map fun m => (OutputError.misfit m).message, some type.text⟩

end FixtureCheck.Fixture
