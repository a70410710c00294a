import SpannerAdbc.Basic
import SpannerAdbc.Lib.Calendar
import SpannerAdbc.Lib.Digits
import SpannerAdbc.Lib.Machine
import SpannerAdbc.Ingest.Budget
import SpannerAdbc.Ingest.Range
import SpannerAdbc.Ingest.Commit
import SpannerAdbc.Ingest.Chunks
import SpannerAdbc.Ingest.WriteOnly
import SpannerAdbc.Ingest.BatchWrite
import SpannerAdbc.Lib.Lookup
import SpannerAdbc.Lib.Munch
import SpannerAdbc.Lib.Offsets
import SpannerAdbc.Lib.Overwrite
import SpannerAdbc.Lib.Panic
import SpannerAdbc.Lib.Percent
import SpannerAdbc.Lib.Heap
import SpannerAdbc.Lib.Prog
import SpannerAdbc.Lib.Result
import SpannerAdbc.Lib.Scanner
import SpannerAdbc.Lib.Split
import SpannerAdbc.Lib.Trace
import SpannerAdbc.Lib.Wildcard
import SpannerAdbc.Metadata.Like
import SpannerAdbc.Metadata.Nested
import SpannerAdbc.Sql.Keyword
import SpannerAdbc.Sql.Lexer
import SpannerAdbc.Sql.Closing
import SpannerAdbc.Sql.Returning
import SpannerAdbc.Sql.Leading
import SpannerAdbc.Sql.Relex
import SpannerAdbc.Sql.Split
import SpannerAdbc.Txn.State
import SpannerAdbc.Txn.System
import SpannerAdbc.Txn.Invariant
import SpannerAdbc.Txn.Accounting
import SpannerAdbc.Stream.Chunk
import SpannerAdbc.Stream.Prefetch
import SpannerAdbc.Stream.Delivery
import SpannerAdbc.Stream.Pipeline
import SpannerAdbc.Stream.Truncation
import SpannerAdbc.Stream.Cancelled
import SpannerAdbc.Cancel.Slot
import SpannerAdbc.Session.Client
import SpannerAdbc.Session.Statement
import SpannerAdbc.Session.Execute
import SpannerAdbc.Session.Connection
import SpannerAdbc.Session.Reads
import SpannerAdbc.Session.Quiet
import SpannerAdbc.Session.ReadOnly
import SpannerAdbc.Session.Bound
import SpannerAdbc.Session.Texts
import SpannerAdbc.Session.BoundQuery
import SpannerAdbc.Session.Protocol
import SpannerAdbc.Session.IngestProtocol
import SpannerAdbc.Session.Calls
import SpannerAdbc.Session.Requests
import SpannerAdbc.Arrow.DataType
import SpannerAdbc.Arrow.Array
import SpannerAdbc.Arrow.Build
import SpannerAdbc.Arrow.Encode
import SpannerAdbc.Arrow.Take
import SpannerAdbc.Sql.Quote
import SpannerAdbc.Sql.Parameters
import SpannerAdbc.Binding.Table
import SpannerAdbc.Binding.Format
import SpannerAdbc.Binding.Cell
import SpannerAdbc.Binding.Agree
import SpannerAdbc.Binding.Dictionary
import SpannerAdbc.Binding.Names
import SpannerAdbc.Ingest.Rebuild
import SpannerAdbc.Statistics.Query
import SpannerAdbc.Sql.Generated
import SpannerAdbc.Session.Driver
import SpannerAdbc.Convert.Scalar
import SpannerAdbc.Convert.Column
import SpannerAdbc.Convert.Decode
import SpannerAdbc.Convert.Schema
import SpannerAdbc.Convert.Wire
import SpannerAdbc.Convert.RoundTrip
import SpannerAdbc.Convert.Checked
import SpannerAdbc.Convert.Exact
import SpannerAdbc.Config.Uri
import SpannerAdbc.Config.Database
import SpannerAdbc.Config.Staged
import SpannerAdbc.Config.Atomic
import SpannerAdbc.Config.Replay
import SpannerAdbc.Config.DirectedRead
import SpannerAdbc.Config.UriChecked
import SpannerAdbc.Config.UriGrammar
import SpannerAdbc.Driver.Connect
import SpannerAdbc.Ffi.Error
import SpannerAdbc.Ffi.Stream
import SpannerAdbc.Ffi.Handle
import SpannerAdbc.Ffi.Ledger
import SpannerAdbc.Ffi.Lifecycle
import SpannerAdbc.Objects.Assemble
import SpannerAdbc.Objects.Listing
import SpannerAdbc.Objects.ForeignKey
import SpannerAdbc.Objects.PushDown
import SpannerAdbc.Objects.Build
import SpannerAdbc.Statistics.Collect
import SpannerAdbc.Statistics.Build
