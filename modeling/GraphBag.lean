import GraphBag.Bag.Writer
import GraphBag.Main
import GraphBag.Session.Client
import GraphBag.Proofs.Json.Numeral
import GraphBag.Proofs.Json.Lexing
import GraphBag.Proofs.Json.Parsing
import GraphBag.Proofs.Value.RoundTrip
import GraphBag.Proofs.Json.Reading
import GraphBag.Proofs.Bag.RoundTrip
import GraphBag.Proofs.Result
import GraphBag.Proofs.Script
import GraphBag.Proofs.Sql.Literal
import GraphBag.Proofs.Sql.Clauses
import GraphBag.Proofs.Sql.Statements
import GraphBag.Proofs.Json.OneLine
import GraphBag.Proofs.Sql.Acceptance
import GraphBag.Proofs.Sql.Lines
import GraphBag.Proofs.Sql.Query
import GraphBag.Proofs.Sql.Retrieves
import GraphBag.Proofs.Bag.Grammar
import GraphBag.Proofs.Sql.Batches
import GraphBag.Proofs.Entries
import GraphBag.Proofs.OrderedMap
import GraphBag.Proofs.Sql.Wording
import GraphBag.Proofs.Session.Runs
import GraphBag.Proofs.Sql.Nesting
import GraphBag.Proofs.Session.Routes
import GraphBag.Proofs.Json.Nesting
import GraphBag.Proofs.Bag.Settled
import GraphBag.Proofs.Bag.Canonical
import GraphBag.Proofs.Sql.Relevance
import GraphBag.Proofs.Sql.Holes
import GraphBag.Proofs.Sql.Payload
import GraphBag.Proofs.Json.Soundness
import GraphBag.Proofs.Response.NestedRows
import GraphBag.Proofs.Value.Meaning
import GraphBag.Proofs.Response.Replies
import GraphBag.Proofs.Response.RowOrder
import GraphBag.Proofs.Response.Accessors
import GraphBag.Proofs.Text.Quoted
import GraphBag.Proofs.Script.Pushes
