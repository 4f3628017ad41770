import FixtureCheck.Main
import FixtureCheck.Proofs.Except
import FixtureCheck.Proofs.Query.Aborts
import FixtureCheck.Proofs.Query.Cycles
import FixtureCheck.Proofs.Query.Findings
import FixtureCheck.Proofs.Query.Typed
import FixtureCheck.Proofs.Query.InPlace
import FixtureCheck.Proofs.Walk.Frames
import FixtureCheck.Proofs.Walk.Impossible
import FixtureCheck.Proofs.Response.Conforms
import FixtureCheck.Proofs.Response.Narrowing
import FixtureCheck.Proofs.Response.Verdict
import FixtureCheck.Proofs.Response.Untold
import FixtureCheck.Proofs.Schema.Collect
import FixtureCheck.Proofs.Schema.Draft
import FixtureCheck.Proofs.Schema.FromDescription
import FixtureCheck.Proofs.Schema.FromDocument
import FixtureCheck.Proofs.Schema.WellFormed
import FixtureCheck.Proofs.SchemaStore.Profile
import FixtureCheck.Proofs.Syntax.Reader
import FixtureCheck.Proofs.Syntax.Written
import FixtureCheck.Proofs.Walk.Erasure
import FixtureCheck.Proofs.Walk.Expected
import FixtureCheck.Proofs.Walk.Met
import FixtureCheck.Proofs.Walk.Mirror
import FixtureCheck.Proofs.Walk.Place
import FixtureCheck.Proofs.Walk.Reach
import FixtureCheck.Proofs.Walk.Scope
import FixtureCheck.Proofs.Walk.Shape
import FixtureCheck.Proofs.Walk.Steps
import FixtureCheck.Proofs.Walk.TypeNames
import FixtureCheck.Proofs.Walk.Verdict
import FixtureCheck.Proofs.Walk.Exchange
import FixtureCheck.Proofs.Walk.Within
import FixtureCheck.Proofs.Walk.Batch
import FixtureCheck.Proofs.Query.Collected
import FixtureCheck.Proofs.Query.InlinedFields
import FixtureCheck.Proofs.Query.Reordered
import FixtureCheck.Proofs.Response.Agree
import FixtureCheck.Proofs.Response.Order
import FixtureCheck.Proofs.Response.Reordered
import FixtureCheck.Proofs.Walk.Altered
import FixtureCheck.Proofs.Walk.Ordinary
import FixtureCheck.Proofs.Walk.LeftOver
import FixtureCheck.Proofs.Walk.Findings
import FixtureCheck.Proofs.Query.Rewritten
import FixtureCheck.Proofs.Response.Replaced
import FixtureCheck.Proofs.Response.Split
import FixtureCheck.Proofs.Response.Factored
import FixtureCheck.Proofs.Walk.Asked
import FixtureCheck.Proofs.Walk.Shadowed
import FixtureCheck.Proofs.Response.Beside
import FixtureCheck.Proofs.Walk.Named
import FixtureCheck.Proofs.Response.Asked
import FixtureCheck.Proofs.Number.Rounding
import FixtureCheck.Proofs.Number.Shortest
import FixtureCheck.Proofs.Json.Number
import FixtureCheck.Proofs.Json.Text
import FixtureCheck.Proofs.Json.Proper
import FixtureCheck.Proofs.Json.Written
import FixtureCheck.Proofs.Json.LineEnds
import FixtureCheck.Proofs.Storage.Path
import FixtureCheck.Proofs.Storage.FileTree
import FixtureCheck.Proofs.Machine
import FixtureCheck.Proofs.SchemaStore.Call
import FixtureCheck.Proofs.Network.Answer
import FixtureCheck.Proofs.SchemaStore.Kept
import FixtureCheck.Proofs.SchemaStore.Run
import FixtureCheck.Proofs.SchemaStore.Origin
import FixtureCheck.Proofs.Schema.Failures
import FixtureCheck.Proofs.SchemaStore.Unreported
import FixtureCheck.Proofs.Walk.Objects
import FixtureCheck.Proofs.Response.Refused
import FixtureCheck.Proofs.Yaml.Proper
import FixtureCheck.Proofs.Report.Truth
import FixtureCheck.Proofs.Report.Markup
import FixtureCheck.Proofs.Report.Console
import FixtureCheck.Proofs.Command.Loading
import FixtureCheck.Proofs.Command.Run
import FixtureCheck.Proofs.Command.Truth
import FixtureCheck.Proofs.Command.Formats
import FixtureCheck.Proofs.Field.Lists
import FixtureCheck.Proofs.Field.Flatten
import FixtureCheck.Proofs.Expectation.Edits
import FixtureCheck.Proofs.Expectation.Log
import FixtureCheck.Proofs.Walk.Similar
import FixtureCheck.Proofs.Walk.Counterpart
import FixtureCheck.Proofs.Walk.Rearranged
import FixtureCheck.Proofs.Output.Pointers
import FixtureCheck.Proofs.Json.Canonical
import FixtureCheck.Proofs.Storage.Changes
import FixtureCheck.Proofs.SchemaStore.Folder
import FixtureCheck.Proofs.SchemaStore.Digest
