import SearchQuery.Main
import SearchQuery.Query.Fluent
import SearchQuery.Proofs.Decoding
import SearchQuery.Proofs.Rows
import SearchQuery.Proofs.Paging
import SearchQuery.Proofs.Window
import SearchQuery.Proofs.Arguments
import SearchQuery.Proofs.Language
import SearchQuery.Proofs.Acceptance
import SearchQuery.Proofs.Refusal
import SearchQuery.Proofs.Lossless
import SearchQuery.Proofs.RoundTrip
import SearchQuery.Proofs.Requested
import SearchQuery.Proofs.NormalForm
import SearchQuery.Proofs.Namespace
import SearchQuery.Proofs.Accumulation
import SearchQuery.Proofs.Responses
import SearchQuery.Proofs.Tightening
import SearchQuery.Proofs.Orderings
import SearchQuery.Proofs.RowCount
import SearchQuery.Proofs.Records
import SearchQuery.Proofs.Conditions
import SearchQuery.Proofs.Negation
import SearchQuery.Proofs.Nesting
import SearchQuery.Proofs.Groups
import SearchQuery.Proofs.Tightest
import SearchQuery.Proofs.Endpoints
