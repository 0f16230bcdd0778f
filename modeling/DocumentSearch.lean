import DocumentSearch.Filter.Format
import DocumentSearch.Store.Indexes
import DocumentSearch.Store.Search
import DocumentSearch.Proofs.Engine.Limit
import DocumentSearch.Proofs.Engine.Paging
import DocumentSearch.Proofs.Engine.Release
import DocumentSearch.Proofs.Filter.Conservation
import DocumentSearch.Proofs.Filter.Faults
import DocumentSearch.Proofs.Filter.Patterns
import DocumentSearch.Proofs.Filter.Preservation
import DocumentSearch.Proofs.Filter.RoundTrip
import DocumentSearch.Proofs.Mapping.ExactField
import DocumentSearch.Proofs.Query.Selection
import DocumentSearch.Proofs.Filter.ShortForms
import DocumentSearch.Proofs.Mapping.Nesting
import DocumentSearch.Proofs.Text.Utf8
import DocumentSearch.Proofs.Json.Values
import DocumentSearch.Proofs.Answer.Envelope
import DocumentSearch.Proofs.Json.Respacing
import DocumentSearch.Proofs.Json.Rearranging
import DocumentSearch.Proofs.Answer.Naming
import DocumentSearch.Proofs.Store.Creation
import DocumentSearch.Proofs.Store.Accounting
import DocumentSearch.Proofs.Json.Pieces
import DocumentSearch.Proofs.Json.Soundness
import DocumentSearch.Proofs.Answer.Verbatim
import DocumentSearch.Proofs.Engine.Taking
import DocumentSearch.Proofs.Store.RawSource
import DocumentSearch.Proofs.Document.Cells
import DocumentSearch.Proofs.Answer.SparseRecords
import DocumentSearch.Proofs.Query.Listing
import DocumentSearch.Proofs.Mapping.Declarations
import DocumentSearch.Proofs.Answer.Walking
import DocumentSearch.Proofs.Engine.ReleaseOnce
import DocumentSearch.Proofs.Query.Exchange
import DocumentSearch.Proofs.Store.Lookup
import DocumentSearch.Proofs.Mapping.Registration
