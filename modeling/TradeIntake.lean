import TradeIntake.Assembly
import TradeIntake.Base64
import TradeIntake.Batch
import TradeIntake.CommandLine
import TradeIntake.Document
import TradeIntake.Document.Copy
import TradeIntake.Document.Element
import TradeIntake.DocumentType
import TradeIntake.DuplicateCheck
import TradeIntake.Extraction
import TradeIntake.Failure
import TradeIntake.Field
import TradeIntake.Finding
import TradeIntake.IngestFailure
import TradeIntake.Inspection
import TradeIntake.Json.Read
import TradeIntake.Json.Token
import TradeIntake.Json.Value
import TradeIntake.Main
import TradeIntake.Message
import TradeIntake.Path.Basic
import TradeIntake.Path.Reader
import TradeIntake.Path.Select
import TradeIntake.Payload
import TradeIntake.Pipeline
import TradeIntake.ProcessingId
import TradeIntake.Proofs.Assembly.StatusTable
import TradeIntake.Proofs.Batch.Alone
import TradeIntake.Proofs.Batch.InFlight
import TradeIntake.Proofs.Document.Namespaces
import TradeIntake.Proofs.Document.Order
import TradeIntake.Proofs.Json.RoundTrip
import TradeIntake.Proofs.Json.Text
import TradeIntake.Proofs.Path.Chain
import TradeIntake.Proofs.Path.Order
import TradeIntake.Proofs.Pipeline.AnyStore
import TradeIntake.Proofs.Pipeline.Outcome
import TradeIntake.Proofs.Pipeline.Run
import TradeIntake.Proofs.Pipeline.Verdict
import TradeIntake.Proofs.Pipeline.Writes
import TradeIntake.Proofs.Store.Contract
import TradeIntake.Proofs.Store.Kept
import TradeIntake.Proofs.Store.Provenance
import TradeIntake.Proofs.Timestamp.Calendar
import TradeIntake.Proofs.Timestamp.Order
import TradeIntake.Proofs.Timestamp.RoundTrip
import TradeIntake.Proofs.Validation.Findings
import TradeIntake.Record
import TradeIntake.Result
import TradeIntake.Settings.Dedup
import TradeIntake.Settings.Extract
import TradeIntake.Settings.File
import TradeIntake.Settings.Ingest
import TradeIntake.Settings.Pipeline
import TradeIntake.Sha256
import TradeIntake.Spelling
import TradeIntake.Store
import TradeIntake.Store.Memory
import TradeIntake.Submission
import TradeIntake.Text.Alphanumeric
import TradeIntake.Text.Blank
import TradeIntake.Text.Decimal
import TradeIntake.Text.Hex
import TradeIntake.Text.Utf8
import TradeIntake.Timestamp
import TradeIntake.Timestamp.Text
import TradeIntake.TradeData
import TradeIntake.Validation
import TradeIntake.Xml.Character
import TradeIntake.Xml.CharacterData
import TradeIntake.Xml.Node
import TradeIntake.Xml.Token
import TradeIntake.Yaml.Cursor
import TradeIntake.Yaml.Node
import TradeIntake.Yaml.Read
import TradeIntake.Yaml.Scalar
import TradeIntake.Yaml.Token
import TradeIntake.Proofs.Except
import TradeIntake.Proofs.Payload.Base64
import TradeIntake.Proofs.Payload.Transport
import TradeIntake.Proofs.Path.Reading
import TradeIntake.Proofs.Path.RoundTrip
import TradeIntake.Proofs.Extraction.Counterparties
import TradeIntake.Proofs.Xml.Brackets
import TradeIntake.Proofs.Document.Copy
import TradeIntake.Proofs.Document.Nesting
import TradeIntake.Proofs.Store.Sweeping
import TradeIntake.Proofs.Validation.Presence
import TradeIntake.Proofs.Extraction.Fields
import TradeIntake.Proofs.Pipeline.Strict
import TradeIntake.Proofs.Store.Arrival
import TradeIntake.Proofs.Xml.NodeLimit
import TradeIntake.Proofs.Document.Limits
import TradeIntake.Proofs.Pipeline.Events
import TradeIntake.Proofs.Path.Grammar
import TradeIntake.Proofs.Path.Documented
import TradeIntake.Proofs.Record.Coherence
import TradeIntake.Proofs.Pipeline.Window
import TradeIntake.Proofs.Document.Mirror
import TradeIntake.Proofs.Document.Traversal
import TradeIntake.Proofs.Path.Evaluation
import TradeIntake.Proofs.Store.Expiry
import TradeIntake.Proofs.Path.Offsets
