/-!
# The query for a schema

`introspectionQuery` asks an endpoint to describe its schema: its root types, its types and its directives, with types
wrapped in lists and non-null types up to nine levels deep.
-/

namespace FixtureCheck.Network

/-- The lines of the query in front of the innermost types. -/
private def queryLines : List String := [
  "", "query IntrospectionQuery \x7b", "  __schema \x7b", "", "    queryType \x7b name kind \x7d",
  "    mutationType \x7b name kind \x7d", "    subscriptionType \x7b name kind \x7d", "    types \x7b",
  "      ...FullType", "    \x7d", "    directives \x7b", "      name", "      description", "", "", "",
  "      locations", "      args \x7b", "        ...InputValue", "      \x7d", "    \x7d", "  \x7d", "\x7d", "",
  "fragment FullType on __Type \x7b", "  kind", "  name", "  description", "", "",
  "  fields(includeDeprecated: true) \x7b", "    name", "    description", "    args \x7b", "      ...InputValue",
  "    \x7d", "    type \x7b", "      ...TypeRef", "    \x7d", "    isDeprecated", "    deprecationReason", "  \x7d",
  "  inputFields \x7b", "    ...InputValue", "  \x7d", "  interfaces \x7b", "    ...TypeRef", "  \x7d",
  "  enumValues(includeDeprecated: true) \x7b", "    name", "    description", "    isDeprecated",
  "    deprecationReason", "  \x7d", "  possibleTypes \x7b", "    ...TypeRef", "  \x7d", "\x7d", "",
  "fragment InputValue on __InputValue \x7b", "  name", "  description", "  type \x7b ...TypeRef \x7d",
  "  defaultValue", "", "", "\x7d", "", "fragment TypeRef on __Type \x7b", "  kind", "  name"]

/-- A line behind two blanks a level. -/
private def indentedLine (depth : Nat) (line : String) : String :=
  String.ofList (List.replicate (2 * depth) ' ') ++ line

/-- The lines about what a type wraps, `n` levels deep. -/
private def wrappedLines (depth : Nat) : Nat → List String
  | 0 => []
  | n + 1 =>
    [indentedLine depth "ofType \x7b", indentedLine (depth + 1) "name", indentedLine (depth + 1) "kind"] ++
      wrappedLines (depth + 1) n ++ [indentedLine depth "\x7d"]

/-- The query that asks for a schema. -/
def introspectionQuery : String :=
  "\n".intercalate (queryLines ++ wrappedLines 1 9 ++ ["\x7d", ""])

end FixtureCheck.Network
