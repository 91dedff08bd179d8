import TableSql.Main
import TableSql.Service.Scripted
import TableSql.Store
import TableSql.Proofs.Inlining
import TableSql.Proofs.Statement.Structure
import TableSql.Proofs.Marker.Alignment
import TableSql.Proofs.Printing.RoundTrip
import TableSql.Proofs.Connection.Calls
import TableSql.Proofs.Statement.Comparison
import TableSql.Proofs.Statement.Cut
import TableSql.Proofs.Statement.Write
import TableSql.Proofs.Connection.Agreement
import TableSql.Proofs.Write.Reach
import TableSql.Proofs.Write.Request
import TableSql.Proofs.Connection.NothingFound
import TableSql.Proofs.Store.Keys
import TableSql.Proofs.Concurrency.Interleaving
import TableSql.Proofs.Concurrency.Linearization
import TableSql.Proofs.Write.Removal
import TableSql.Proofs.Recipe.Counting
import TableSql.Proofs.Statement.Layout
import TableSql.Proofs.Connection.Recompute
import TableSql.Proofs.Marker.Places
import TableSql.Proofs.Connection.Counting
import TableSql.Proofs.Token.Lossless
import TableSql.Proofs.Write.Traces
import TableSql.Proofs.Request.Identity
import TableSql.Proofs.Statement.Front
import TableSql.Proofs.Statement.Reordering
import TableSql.Proofs.Connection.Reordering
import TableSql.Proofs.Store.Sorting
import TableSql.Proofs.Store.Changes
import TableSql.Proofs.Store.OwnCells
import TableSql.Proofs.Decimal.Nearest
import TableSql.Proofs.Store.IntegerFilters
import TableSql.Proofs.Connection.Paging
import TableSql.Proofs.Connection.PagedAggregate
import TableSql.Proofs.Token.Literal
import TableSql.Proofs.Recipe.Priority
import TableSql.Proofs.CommandLine.Parameter
import TableSql.Proofs.Statement.Written
import TableSql.Proofs.Statement.Balance
import TableSql.Proofs.Form.Quoting
import TableSql.Proofs.Request.Address
import TableSql.Proofs.Json.ReadBack
import TableSql.Proofs.Connection.SingleRow
import TableSql.Proofs.Statement.Partition
import TableSql.Proofs.Statement.AggregateCall
import TableSql.Proofs.Statement.OnePass
