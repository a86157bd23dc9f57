import CodeSearch.Indexing.Pool
import CodeSearch.Main
import CodeSearch.Proofs.Outline.Coverage
import CodeSearch.Proofs.Indexing.Orphans
import CodeSearch.Proofs.Store.Ids
import CodeSearch.Proofs.Indexing.Steps
import CodeSearch.Proofs.Indexing.Turns
import CodeSearch.Proofs.Indexing.Cleanup
import CodeSearch.Proofs.Indexing.Runs
import CodeSearch.Proofs.Indexing.Traces
import CodeSearch.Proofs.Indexing.Plans
import CodeSearch.Proofs.Indexing.Processed
import CodeSearch.Proofs.Indexing.Repair
import CodeSearch.Proofs.Indexing.Reindex
import CodeSearch.Proofs.Passages.Coverage
import CodeSearch.Proofs.Passages.Tiling
import CodeSearch.Proofs.Store.Reachable
import CodeSearch.Proofs.Search.Page
import CodeSearch.Proofs.Search.Atop
import CodeSearch.Proofs.Indexing.FirstRun
import CodeSearch.Proofs.Indexing.Neighbours
import CodeSearch.Proofs.Store.Novel
import CodeSearch.Proofs.Store.Atop
import CodeSearch.Proofs.Indexing.Arrivals
import CodeSearch.Proofs.Indexing.Atop
import CodeSearch.Proofs.Store.Integrity
import CodeSearch.Proofs.Store.Transactions
import CodeSearch.Proofs.Indexing.Refusals
import CodeSearch.Proofs.Naming.Canonical
import CodeSearch.Proofs.Text.Squeezing
import CodeSearch.Proofs.Naming.Lookup
import CodeSearch.Proofs.Discovery.Trees
import CodeSearch.Proofs.Discovery.Walk
import CodeSearch.Proofs.Discovery.Listing
import CodeSearch.Proofs.Outline.Fixpoint
import CodeSearch.Proofs.Span.Checked
import CodeSearch.Embedding.InFlight
import CodeSearch.Proofs.Embedding.InFlight
import CodeSearch.Proofs.Indexing.Rollback
import CodeSearch.Proofs.Search.Diversity
import CodeSearch.Proofs.Search.Stability
import CodeSearch.Proofs.Search.Context
import CodeSearch.Proofs.Outline.Bundling
import CodeSearch.Proofs.Passages.Lines
import CodeSearch.Proofs.Discovery.Depth
import CodeSearch.Proofs.Store.Insertion
import CodeSearch.Proofs.Store.Deletion
import CodeSearch.Proofs.Text.Tables
import CodeSearch.Proofs.Text.Characters
import CodeSearch.Proofs.Text.Runs
import CodeSearch.Proofs.Search.Sanitizing
import CodeSearch.Proofs.Outline.SpanKeys
import CodeSearch.Proofs.Sorting
import CodeSearch.Proofs.Embedding.Places
import CodeSearch.Proofs.Text.LowerCase
import CodeSearch.Proofs.Text.Decomposition
import CodeSearch.Proofs.Naming.Spellings
import CodeSearch.Proofs.Search.Overlap
import CodeSearch.Proofs.Indexing.Reports
import CodeSearch.Proofs.Decimal.Literals
import CodeSearch.Proofs.Json.Driving
import CodeSearch.Proofs.Json.Printing
import CodeSearch.Proofs.Outline.Composites
import CodeSearch.Proofs.Span.Bracketing
import CodeSearch.Proofs.Json.Pruning
import CodeSearch.Proofs.Files.Writing
import CodeSearch.Proofs.Settings.Precedence
