import FixtureCheck.Json.Parser

/-!
# Answers of endpoints

A `Response` is what an endpoint answers to a request. `Response.json` reads its body as JSON; if that fails, the
message shows the beginning of the body and says what may help.
-/

namespace FixtureCheck.Network

/-- An answer of an endpoint. -/
structure Response where
  status : Int
  body : String
  /-- The address that answered. -/
  url : String
  contentType : Option String
  deriving DecidableEq, Repr

/-- A body that is no JSON. -/
structure NotJson where
  response : Response
  cause : Json.ParseError

/-- The value in the body of an answer. -/
def Response.json (r : Response) : Except NotJson Json := (Json.parse r.body).mapError (⟨r, ·⟩)

/-- The number of characters of a body that a message shows. -/
def maxBodyPreview : Nat := 300

/-- The beginning of a body. -/
def Response.bodyPreview (r : Response) : String :=
  let cs := r.body.toList
  String.ofList (cs.take maxBodyPreview) ++ if cs.length > maxBodyPreview then "..." else ""

/-- The message about a body that is no JSON, where `purpose` is what the request was for. -/
def NotJson.message (purpose : String) (e : NotJson) : String :=
  let kind := e.response.contentType.getD "unknown"
  "\n".intercalate [
    s!"{purpose} failed - server returned non-JSON response",
    "",
    s!"  URL: {e.response.url}",
    s!"  Status: {e.response.status}",
    s!"  Content-Type: {kind}",
    "",
    "  Response preview:",
    s!"  {e.response.bodyPreview}",
    "",
    "  Suggestions:",
    "  - Verify the URL points to a GraphQL endpoint",
    "  - Authentication may be required - try adding --token YOUR_TOKEN",
    "",
    s!"  Original JSON error: {e.cause.message}"]

end FixtureCheck.Network
