import CodeNav.Backend
import CodeNav.Background
import CodeNav.Bridge.Child
import CodeNav.Bridge.Host
import CodeNav.Bridge.Lifecycle
import CodeNav.Cache
import CodeNav.Channel.Address
import CodeNav.Channel.Caller
import CodeNav.Channel.Frame
import CodeNav.Channel.Lines
import CodeNav.Channel.Link
import CodeNav.Channel.Server
import CodeNav.Channel.Socket
import CodeNav.Checkout.Scan
import CodeNav.Checkout.Word
import CodeNav.Client
import CodeNav.Clock
import CodeNav.CommandLine.Command
import CodeNav.CommandLine.Grammar
import CodeNav.CommandLine.Reader
import CodeNav.Criterion
import CodeNav.Decimal.Binary64
import CodeNav.Decimal.Shortest
import CodeNav.Direct
import CodeNav.ErrorChain
import CodeNav.Files.Path
import CodeNav.Files.Tree
import CodeNav.Http.Exchange
import CodeNav.Http.Url
import CodeNav.Identifier
import CodeNav.Index.Endpoint
import CodeNav.Index.Exchange
import CodeNav.Json.Basic
import CodeNav.Json.Decoder
import CodeNav.Json.Document
import CodeNav.Json.Numeral
import CodeNav.Json.Printer
import CodeNav.Json.Token
import CodeNav.Main
import CodeNav.Navigator
import CodeNav.Placement
import CodeNav.Program.Child
import CodeNav.Program.Run
import CodeNav.Program.Search
import CodeNav.Program.World
import CodeNav.Proofs.Bridge.Child
import CodeNav.Proofs.Bridge.Forward
import CodeNav.Proofs.Bridge.Launches
import CodeNav.Proofs.Bridge.Life
import CodeNav.Proofs.Cache
import CodeNav.Proofs.Cache.Freshness
import CodeNav.Proofs.Cache.Usage
import CodeNav.Proofs.Channel.Answers
import CodeNav.Proofs.Channel.Conversation
import CodeNav.Proofs.Channel.Crossing
import CodeNav.Proofs.Channel.Delivery
import CodeNav.Proofs.Channel.Fates
import CodeNav.Proofs.Channel.Frames
import CodeNav.Proofs.Channel.Framing
import CodeNav.Proofs.Channel.Handling
import CodeNav.Proofs.Channel.Ledger
import CodeNav.Proofs.Channel.Log
import CodeNav.Proofs.Channel.Moves
import CodeNav.Proofs.Channel.Orderly
import CodeNav.Proofs.Channel.Pieces
import CodeNav.Proofs.Channel.RoundTrip
import CodeNav.Proofs.Channel.Rounds
import CodeNav.Proofs.Channel.Service
import CodeNav.Proofs.Channel.Session
import CodeNav.Proofs.Channel.Transparency
import CodeNav.Proofs.Channel.Upkeep
import CodeNav.Proofs.Checkout.Cancellation
import CodeNav.Proofs.Checkout.Containment
import CodeNav.Proofs.Checkout.ContentHits
import CodeNav.Proofs.Checkout.Groups
import CodeNav.Proofs.Checkout.HitByHit
import CodeNav.Proofs.Checkout.LineEnds
import CodeNav.Proofs.Checkout.Navigation
import CodeNav.Proofs.Checkout.Pool
import CodeNav.Proofs.Checkout.Soundness
import CodeNav.Proofs.Checkout.StrayBytes
import CodeNav.Proofs.Client.Basic
import CodeNav.Proofs.Client.History
import CodeNav.Proofs.Client.Overflow
import CodeNav.Proofs.Client.Returns
import CodeNav.Proofs.Client.Sharing
import CodeNav.Proofs.CommandLine.Detached
import CodeNav.Proofs.Criterion
import CodeNav.Proofs.Criterion.Acceptance
import CodeNav.Proofs.Files.Ancestors
import CodeNav.Proofs.Files.Components
import CodeNav.Proofs.Files.Path
import CodeNav.Proofs.Files.Walk
import CodeNav.Proofs.Identifier
import CodeNav.Proofs.Identifier.Runs
import CodeNav.Proofs.Identifier.Scan
import CodeNav.Proofs.Json.Controls
import CodeNav.Proofs.Json.Nesting
import CodeNav.Proofs.Json.Records
import CodeNav.Proofs.Json.Scalars
import CodeNav.Proofs.Json.Texts
import CodeNav.Proofs.Navigator.Limit
import CodeNav.Proofs.Navigator.Sharing
import CodeNav.Proofs.Placement.Endings
import CodeNav.Proofs.Placement.Extent
import CodeNav.Proofs.Placement.Fallback
import CodeNav.Proofs.Placement.FixedPoint
import CodeNav.Proofs.Placement.Inverse
import CodeNav.Proofs.Placement.Scan
import CodeNav.Proofs.Placement.Search
import CodeNav.Proofs.Placement.Sums
import CodeNav.Proofs.Placement.Widths
import CodeNav.Proofs.Program.Child
import CodeNav.Proofs.Query
import CodeNav.Proofs.Repository.Authority
import CodeNav.Proofs.Repository.CloneAddress
import CodeNav.Proofs.Repository.Parts
import CodeNav.Proofs.Repository.Root
import CodeNav.Proofs.Repository.Segments
import CodeNav.Proofs.Settings.Overrides
import CodeNav.Proofs.Settings.Variables
import CodeNav.Proofs.StableSort
import CodeNav.Proofs.Supplement
import CodeNav.Proofs.Text.Boundaries
import CodeNav.Proofs.Text.Case
import CodeNav.Proofs.Text.Columns
import CodeNav.Proofs.Text.Decimal
import CodeNav.Proofs.Text.Expansion
import CodeNav.Proofs.Text.Lines
import CodeNav.Proofs.Text.Lowering
import CodeNav.Proofs.Text.Pieces
import CodeNav.Proofs.Text.Positions
import CodeNav.Proofs.Text.Utf8
import CodeNav.Proofs.Wire
import CodeNav.Proofs.Wire.Encodings
import CodeNav.Proofs.Wire.Timeout
import CodeNav.Query
import CodeNav.Rehearsal.Calling
import CodeNav.Rehearsal.Script
import CodeNav.Rehearsal.Serving
import CodeNav.Rehearsal.Together
import CodeNav.Report
import CodeNav.Repository.Detect
import CodeNav.Repository.GitConfig
import CodeNav.Repository.Remote
import CodeNav.Settings.Basic
import CodeNav.Settings.Environment
import CodeNav.Settings.File
import CodeNav.Supplement
import CodeNav.Symbol
import CodeNav.Text.AsciiCase
import CodeNav.Text.Base64
import CodeNav.Text.Blank
import CodeNav.Text.Decimal
import CodeNav.Text.Interval
import CodeNav.Text.Letter
import CodeNav.Text.Lines
import CodeNav.Text.Lower
import CodeNav.Text.Units
import CodeNav.Text.Utf8
import CodeNav.Timed
import CodeNav.Toml.Basic
import CodeNav.Toml.Parser
import CodeNav.Toml.Scalars
import CodeNav.Toml.Strings
import CodeNav.Toml.Table
import CodeNav.Wire
import CodeNav.Word
