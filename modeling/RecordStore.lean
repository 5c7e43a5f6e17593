import RecordStore.ByteReader
import RecordStore.Bytes
import RecordStore.Cache.Basic
import RecordStore.Cache.Mix
import RecordStore.Cache.Recency
import RecordStore.Cache.Shard
import RecordStore.Collection.Basic
import RecordStore.Collection.Header
import RecordStore.Collection.Layout
import RecordStore.Collection.Open
import RecordStore.Collection.Order
import RecordStore.Collection.Records
import RecordStore.Collection.Search
import RecordStore.Geometry.Kind
import RecordStore.Geometry.Render
import RecordStore.Geometry.Scan
import RecordStore.Geometry.Token
import RecordStore.Index.ByName
import RecordStore.Index.PropertyIndex
import RecordStore.Index.Record
import RecordStore.IpAddress
import RecordStore.Key
import RecordStore.Main
import RecordStore.Numeric.Binary
import RecordStore.Numeric.Digits
import RecordStore.Numeric.FixedPoint
import RecordStore.Numeric.Leading
import RecordStore.Numeric.Literal
import RecordStore.Proofs.Cache.Backpressure
import RecordStore.Proofs.Cache.Coherence
import RecordStore.Proofs.Cache.Consistency
import RecordStore.Proofs.Cache.Contents
import RecordStore.Proofs.Cache.Eviction
import RecordStore.Proofs.Cache.Failing
import RecordStore.Proofs.Cache.History
import RecordStore.Proofs.Cache.RecencyOrder
import RecordStore.Proofs.Cache.ShardGet
import RecordStore.Proofs.Cache.ShardShelf
import RecordStore.Proofs.Cache.ShardSound
import RecordStore.Proofs.Cache.Shelf
import RecordStore.Proofs.Cache.ShelfRuns
import RecordStore.Proofs.Cache.Spreading
import RecordStore.Proofs.Checked.Cache
import RecordStore.Proofs.Checked.Collection
import RecordStore.Proofs.Checked.Guards
import RecordStore.Proofs.Checked.Integers
import RecordStore.Proofs.Checked.Numbers
import RecordStore.Proofs.Collection.Agreement
import RecordStore.Proofs.Collection.Answering
import RecordStore.Proofs.Collection.AnyHandle
import RecordStore.Proofs.Collection.Asking
import RecordStore.Proofs.Collection.Bisecting
import RecordStore.Proofs.Collection.Budgeting
import RecordStore.Proofs.Collection.Containment
import RecordStore.Proofs.Collection.Custody
import RecordStore.Proofs.Collection.Giving
import RecordStore.Proofs.Collection.Holding
import RecordStore.Proofs.Collection.Listing
import RecordStore.Proofs.Collection.Lockstep
import RecordStore.Proofs.Collection.Measuring
import RecordStore.Proofs.Collection.Offering
import RecordStore.Proofs.Collection.Opening
import RecordStore.Proofs.Collection.Probing
import RecordStore.Proofs.Collection.Recall
import RecordStore.Proofs.Collection.RecordSize
import RecordStore.Proofs.Collection.Refusing
import RecordStore.Proofs.Collection.Releasing
import RecordStore.Proofs.Collection.Searching
import RecordStore.Proofs.Collection.Serving
import RecordStore.Proofs.Collection.Sharing
import RecordStore.Proofs.Collection.Streaming
import RecordStore.Proofs.Collection.Walking
import RecordStore.Proofs.Geometry.Building
import RecordStore.Proofs.Geometry.Continuing
import RecordStore.Proofs.Geometry.Metering
import RecordStore.Proofs.Geometry.Rendering
import RecordStore.Proofs.Geometry.Spending
import RecordStore.Proofs.Geometry.Tree
import RecordStore.Proofs.Geometry.Wkt
import RecordStore.Proofs.Geometry.Yields
import RecordStore.Proofs.Index.AtRest
import RecordStore.Proofs.Index.Counting
import RecordStore.Proofs.Index.Decoding
import RecordStore.Proofs.Index.Leaving
import RecordStore.Proofs.Index.Lookup
import RecordStore.Proofs.Index.Naming
import RecordStore.Proofs.Numeric.Canonical
import RecordStore.Proofs.Numeric.Decimal
import RecordStore.Proofs.Numeric.Grammar
import RecordStore.Proofs.Numeric.Leading
import RecordStore.Proofs.Numeric.Numeral
import RecordStore.Proofs.Numeric.Places
import RecordStore.Proofs.Numeric.Rounding
import RecordStore.Proofs.Shell.Entering
import RecordStore.Proofs.Shell.Places
import RecordStore.Proofs.Shell.Retrieving
import RecordStore.Proofs.Shell.RoundTrip
import RecordStore.Proofs.Shell.Sessions
import RecordStore.Proofs.Shell.Settings
import RecordStore.Proofs.Storage.Circulation
import RecordStore.Proofs.Text.Bounded
import RecordStore.Proofs.Text.Dropped
import RecordStore.Proofs.Text.Encoding
import RecordStore.Proofs.Text.Roomy
import RecordStore.Proofs.Text.Spacing
import RecordStore.Proofs.Text.Validity
import RecordStore.Proofs.Value.Address
import RecordStore.Proofs.Value.Attempts
import RecordStore.Proofs.Value.Coercing
import RecordStore.Proofs.Value.Comparing
import RecordStore.Proofs.Value.Fetched
import RecordStore.Proofs.Value.Integers
import RecordStore.Proofs.Value.Matching
import RecordStore.Proofs.Words
import RecordStore.Proofs.Writer.Consecutive
import RecordStore.Proofs.Writer.Drafts
import RecordStore.Proofs.Writer.ReadBack
import RecordStore.RecordWriter
import RecordStore.Shell.Arguments
import RecordStore.Shell.Command
import RecordStore.Shell.Creation
import RecordStore.Shell.Directory
import RecordStore.Shell.Fault
import RecordStore.Shell.Session
import RecordStore.Shell.Typing
import RecordStore.Shell.Words
import RecordStore.Storage.Basic
import RecordStore.Storage.DataFile
import RecordStore.Storage.HandlePool
import RecordStore.StoreError
import RecordStore.Text.Blank
import RecordStore.Text.Builder
import RecordStore.Text.Grapheme
import RecordStore.Text.GraphemeBreak
import RecordStore.Text.Hex
import RecordStore.Text.Utf8
import RecordStore.Value.Basic
import RecordStore.Value.Coerce
import RecordStore.Value.Compare
import RecordStore.Value.Render
import RecordStore.ValueType
