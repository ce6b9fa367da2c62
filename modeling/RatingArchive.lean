import RatingArchive.Bytes
import RatingArchive.Text.Blank
import RatingArchive.Text.Split
import RatingArchive.Text.Natural
import RatingArchive.Text.Hex
import RatingArchive.Text.Hidden
import RatingArchive.Text.Quoted
import RatingArchive.Binary64.Text
import RatingArchive.Binary64.Reading
import RatingArchive.Calendar
import RatingArchive.Search
import RatingArchive.Rating
import RatingArchive.SortOrder
import RatingArchive.IoError
import RatingArchive.Error
import RatingArchive.Format
import RatingArchive.Header
import RatingArchive.Source
import RatingArchive.Writer
import RatingArchive.Index.Table
import RatingArchive.Index.Builder
import RatingArchive.Index.Collation
import RatingArchive.Index.Reading
import RatingArchive.Index.Run
import RatingArchive.Sink
import RatingArchive.Sink.Memory
import RatingArchive.Sink.File
import RatingArchive.Event
import RatingArchive.Packer
import RatingArchive.File
import RatingArchive.RatingList
import RatingArchive.Image
import RatingArchive.KeySet
import RatingArchive.Archive
import RatingArchive.Archive.Query
import RatingArchive.Archive.Window
import RatingArchive.Archive.Transport
import RatingArchive.Archive.Source
import RatingArchive.Description
import RatingArchive.Dump
import RatingArchive.Text.Lines
import RatingArchive.RatingLine
import RatingArchive.Tool.Outcome
import RatingArchive.Tool.Arguments
import RatingArchive.Tool.Volume
import RatingArchive.Tool.Pack
import RatingArchive.Tool.Inspect
import RatingArchive.Tool.Command
import RatingArchive.Main
import RatingArchive.Proofs.Actions
import RatingArchive.Proofs.Interruption
import RatingArchive.Proofs.Search
import RatingArchive.Proofs.Region
import RatingArchive.Proofs.Recording
import RatingArchive.Proofs.Index.Ordered
import RatingArchive.Proofs.Index.Codec
import RatingArchive.Proofs.Index.Building
import RatingArchive.Proofs.Index.Placement
import RatingArchive.Proofs.Index.Shortage
import RatingArchive.Proofs.Streams
import RatingArchive.Proofs.Index.Streaming
import RatingArchive.Proofs.Index.Delimited
import RatingArchive.Proofs.Index.Agreement
import RatingArchive.Proofs.Index.Cuts
import RatingArchive.Proofs.Index.OfRatings
import RatingArchive.Proofs.Header
import RatingArchive.Proofs.Image
import RatingArchive.Proofs.Records
import RatingArchive.Proofs.Walking
import RatingArchive.Proofs.Index.Lookup
import RatingArchive.Proofs.Ends
import RatingArchive.Proofs.Lists
import RatingArchive.Proofs.Opening
import RatingArchive.Proofs.Extent
import RatingArchive.Proofs.WellFormed
import RatingArchive.Proofs.Transport
import RatingArchive.Proofs.Sink
import RatingArchive.Proofs.Sink.Memory
import RatingArchive.Proofs.Sink.File
import RatingArchive.Proofs.Packer.Ensures
import RatingArchive.Proofs.Packer.Completion
import RatingArchive.Proofs.Packer.Runs
import RatingArchive.Proofs.Packing
import RatingArchive.Proofs.RoundTrip
import RatingArchive.Proofs.Windows
import RatingArchive.Proofs.Reachable
import RatingArchive.Proofs.Grouping
import RatingArchive.Proofs.Arrival
import RatingArchive.Proofs.Bounds
import RatingArchive.Proofs.Readings
import RatingArchive.Proofs.Routes
import RatingArchive.Proofs.Verification
import RatingArchive.Proofs.Shortages
import RatingArchive.Proofs.Truncation
import RatingArchive.Proofs.Coverage
import RatingArchive.Proofs.Exchange
import RatingArchive.Proofs.CrashConsistency
import RatingArchive.Proofs.Packer.Collation
import RatingArchive.Proofs.Packer.Offers
import RatingArchive.Proofs.Probes
import RatingArchive.Proofs.Packer.Journal
import RatingArchive.Proofs.RatingLine
import RatingArchive.Proofs.Packer.Alike
import RatingArchive.Proofs.Text.Lines
import RatingArchive.Proofs.Tool.Pack
