import FixtureCheck.Host
import FixtureCheck.Json.Access
import FixtureCheck.Network.IntrospectionQuery

/-!
# Asking an endpoint for its schema

`introspect` sends the query for a schema to an endpoint and takes the description out of the answer. `EndpointError`
tells in which ways that fails.
-/

namespace FixtureCheck.Network

/-- Why an endpoint gives no schema. -/
inductive EndpointError where
  | unreachable (url cause : String)
  | status (code : Int)
  | notJson (cause : NotJson)
  /-- The endpoint reports errors. -/
  | refused (errors : Json)
  /-- The answer has a shape that no answer should have. -/
  | shape (cause : Json.AccessError)

/-- The message about an error. -/
def EndpointError.message : EndpointError → String
  | unreachable url cause => s!"Introspection request to {url} failed: {cause}"
  | status code => s!"Introspection failed with status {code}"
  | notJson cause => cause.message "GraphQL introspection"
  | refused errors => s!"Introspection errors: {errors.asText}"
  | shape cause => cause.message

/-- The request for the schema of an endpoint. An empty token is none. -/
def schemaPost (url : String) (token : Option String) : Post :=
  { url
    authorization := (token.filter (· ≠ "")).map ("Bearer " ++ ·)
    query := introspectionQuery
    timeout := 30 }

/-- The description of a schema in the body of an answer. -/
def describedSchema (body : Json) : Except EndpointError Json := do
  if ← (body.holds "errors").mapError .shape then throw (.refused (← (body.entry "errors").mapError .shape))
  (body.entry "data").mapError .shape

/-- The description of a schema in an answer. -/
def Response.schema (r : Response) : Except EndpointError Json := do
  if r.status != 200 then throw (.status r.status)
  describedSchema (← r.json.mapError .notJson)

/-- Asks an endpoint for its schema. -/
def introspect {m : Type → Type} [Monad m] [Host m] (url : String) (token : Option String) :
    ExceptT EndpointError m Json := do
  match ← Host.post (schemaPost url token) with
  | .error cause => throw (.unreachable url cause)
  | .ok response => MonadExcept.ofExcept response.schema

end FixtureCheck.Network
