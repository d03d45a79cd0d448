import MeshTelemetry.Activity
import MeshTelemetry.Alert.Basic
import MeshTelemetry.Alert.Dispatch
import MeshTelemetry.Alert.Downlink
import MeshTelemetry.Alert.Targets
import MeshTelemetry.Alert.Webhook
import MeshTelemetry.Bus.Link
import MeshTelemetry.Bus.Packet
import MeshTelemetry.Bus.Simulated
import MeshTelemetry.Configuration.Basic
import MeshTelemetry.Configuration.File
import MeshTelemetry.Data.KeyMap
import MeshTelemetry.Data.Table
import MeshTelemetry.Expiry
import MeshTelemetry.Exporter
import MeshTelemetry.Files.FileSystem
import MeshTelemetry.Files.Path
import MeshTelemetry.Http.Exchange
import MeshTelemetry.Http.MediaType
import MeshTelemetry.Json.Document
import MeshTelemetry.Json.Numeral
import MeshTelemetry.Json.Printer
import MeshTelemetry.Json.Reading
import MeshTelemetry.Json.Token
import MeshTelemetry.Json.Value
import MeshTelemetry.Message.Basic
import MeshTelemetry.Message.Envelope
import MeshTelemetry.Message.Readings
import MeshTelemetry.Message.Record
import MeshTelemetry.Message.Rejection
import MeshTelemetry.Message.Sample
import MeshTelemetry.Metrics.Exposition
import MeshTelemetry.Metrics.Gauge
import MeshTelemetry.Metrics.Persistence
import MeshTelemetry.Metrics.Snapshot
import MeshTelemetry.Metrics.Store
import MeshTelemetry.Net.SocketAddress
import MeshTelemetry.Numeric.Binary64
import MeshTelemetry.Numeric.Layout
import MeshTelemetry.Numeric.Radix
import MeshTelemetry.Numeric.Shortest
import MeshTelemetry.Proofs.Alert.Delivery
import MeshTelemetry.Proofs.Alert.Downlinks
import MeshTelemetry.Proofs.Alert.Publishing
import MeshTelemetry.Proofs.Alert.TargetLists
import MeshTelemetry.Proofs.Alert.Wording
import MeshTelemetry.Proofs.Configuration.Validity
import MeshTelemetry.Proofs.Data.KeyMap
import MeshTelemetry.Proofs.Data.Table
import MeshTelemetry.Proofs.Exporter.Calls
import MeshTelemetry.Proofs.Exporter.Counting
import MeshTelemetry.Proofs.Exporter.Echoes
import MeshTelemetry.Proofs.Exporter.Interleaving
import MeshTelemetry.Proofs.Exporter.Isolation
import MeshTelemetry.Proofs.Exporter.LastWrite
import MeshTelemetry.Proofs.Exporter.Refusals
import MeshTelemetry.Proofs.Exporter.Restarting
import MeshTelemetry.Proofs.Exporter.Saving
import MeshTelemetry.Proofs.Exporter.Sweeping
import MeshTelemetry.Proofs.Exporter.Telemetry
import MeshTelemetry.Proofs.Exporter.Tracking
import MeshTelemetry.Proofs.Files.Places
import MeshTelemetry.Proofs.Files.Replacing
import MeshTelemetry.Proofs.Files.Stopping
import MeshTelemetry.Proofs.Json.Compact
import MeshTelemetry.Proofs.Json.Finiteness
import MeshTelemetry.Proofs.Json.Members
import MeshTelemetry.Proofs.Json.NumberText
import MeshTelemetry.Proofs.Json.Numerals
import MeshTelemetry.Proofs.Json.Opening
import MeshTelemetry.Proofs.Json.Parts
import MeshTelemetry.Proofs.Json.Printing
import MeshTelemetry.Proofs.Json.Reading
import MeshTelemetry.Proofs.Json.Rereading
import MeshTelemetry.Proofs.Json.Strings
import MeshTelemetry.Proofs.Message.Acceptance
import MeshTelemetry.Proofs.Message.Codes
import MeshTelemetry.Proofs.Message.Envelopes
import MeshTelemetry.Proofs.Message.Looks
import MeshTelemetry.Proofs.Message.Senders
import MeshTelemetry.Proofs.Metrics.Agreement
import MeshTelemetry.Proofs.Metrics.FiniteGauges
import MeshTelemetry.Proofs.Metrics.LatestIdentity
import MeshTelemetry.Proofs.Metrics.Operations
import MeshTelemetry.Proofs.Metrics.Persistence
import MeshTelemetry.Proofs.Metrics.Rereading
import MeshTelemetry.Proofs.Metrics.Restoration
import MeshTelemetry.Proofs.Metrics.Restoring
import MeshTelemetry.Proofs.Metrics.RestoringTwice
import MeshTelemetry.Proofs.Metrics.SnapshotText
import MeshTelemetry.Proofs.Metrics.SnapshotViews
import MeshTelemetry.Proofs.Metrics.StoppedSaves
import MeshTelemetry.Proofs.Metrics.Views
import MeshTelemetry.Proofs.Numeric.Borders
import MeshTelemetry.Proofs.Numeric.Digits
import MeshTelemetry.Proofs.Numeric.Exactness
import MeshTelemetry.Proofs.Numeric.Finiteness
import MeshTelemetry.Proofs.Numeric.Hundredths
import MeshTelemetry.Proofs.Numeric.Radix
import MeshTelemetry.Proofs.Numeric.Rounding
import MeshTelemetry.Proofs.Numeric.Shortest
import MeshTelemetry.Proofs.Numeric.Spelling
import MeshTelemetry.Proofs.Service.Batches
import MeshTelemetry.Proofs.Service.Dispatching
import MeshTelemetry.Proofs.Service.Sampling
import MeshTelemetry.Proofs.Text.ByteOrder
import MeshTelemetry.Proofs.Text.Ellipsis
import MeshTelemetry.Proofs.Text.Splitting
import MeshTelemetry.Proofs.Text.Symbols
import MeshTelemetry.Proofs.Text.Trimming
import MeshTelemetry.Proofs.Topic.Selection
import MeshTelemetry.Service.Basic
import MeshTelemetry.Service.Bench
import MeshTelemetry.Service.Health
import MeshTelemetry.Text.Blank
import MeshTelemetry.Text.Ellipsis
import MeshTelemetry.Text.Utf8
import MeshTelemetry.Topic
import MeshTelemetry.Yaml.Cursor
import MeshTelemetry.Yaml.Node
import MeshTelemetry.Yaml.Reading
import MeshTelemetry.Yaml.Scalar
import MeshTelemetry.Yaml.Token
