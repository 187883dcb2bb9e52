import HeadUnit.Allowlist
import HeadUnit.Binary64
import HeadUnit.Catalog
import HeadUnit.Catalog.Messages
import HeadUnit.Catalog.Records
import HeadUnit.Catalog.VehicleData
import HeadUnit.Catalog.Vocabularies
import HeadUnit.Config
import HeadUnit.Config.Reader
import HeadUnit.Container
import HeadUnit.Decimal.Shortest
import HeadUnit.Dispatcher
import HeadUnit.Envelope
import HeadUnit.Error
import HeadUnit.Field
import HeadUnit.Field.Outline
import HeadUnit.Frame
import HeadUnit.FunctionName
import HeadUnit.Inspector.Event
import HeadUnit.Inspector.Handlers
import HeadUnit.Inspector.Session
import HeadUnit.Json
import HeadUnit.Json.Number
import HeadUnit.Json.Reader
import HeadUnit.Json.Token
import HeadUnit.KeyTable
import HeadUnit.Kind
import HeadUnit.Main
import HeadUnit.Members
import HeadUnit.Message
import HeadUnit.MessageKind
import HeadUnit.Params
import HeadUnit.Policy
import HeadUnit.Proofs.Binary64.Finite
import HeadUnit.Proofs.Binary64.Magnitude
import HeadUnit.Proofs.Binary64.Near
import HeadUnit.Proofs.Binary64.Rounding
import HeadUnit.Proofs.Catalog.Locality
import HeadUnit.Proofs.Catalog.Messages
import HeadUnit.Proofs.Catalog.Skew
import HeadUnit.Proofs.Catalog.Tables
import HeadUnit.Proofs.Catalog.Telemetry
import HeadUnit.Proofs.Catalog.TelemetryFrames
import HeadUnit.Proofs.Catalog.WireTypes
import HeadUnit.Proofs.Config.Startup
import HeadUnit.Proofs.Config.Valid
import HeadUnit.Proofs.Container.Assignments
import HeadUnit.Proofs.Container.Conversion
import HeadUnit.Proofs.Container.Rekeying
import HeadUnit.Proofs.Container.Resolution
import HeadUnit.Proofs.Container.Runs
import HeadUnit.Proofs.Container.Skew
import HeadUnit.Proofs.Container.Views
import HeadUnit.Proofs.Container.Writes
import HeadUnit.Proofs.Decimal.Shortest
import HeadUnit.Proofs.Dispatcher.Routing
import HeadUnit.Proofs.Envelope.Acceptance
import HeadUnit.Proofs.Envelope.Bytes
import HeadUnit.Proofs.Envelope.NormalForm
import HeadUnit.Proofs.Envelope.Relay
import HeadUnit.Proofs.Envelope.RoundTrip
import HeadUnit.Proofs.Envelope.Text
import HeadUnit.Proofs.Inspector.Deletion
import HeadUnit.Proofs.Inspector.Lines
import HeadUnit.Proofs.Inspector.Replies
import HeadUnit.Proofs.Json.Float
import HeadUnit.Proofs.Json.Number
import HeadUnit.Proofs.Json.Reread
import HeadUnit.Proofs.Json.RoundTrip
import HeadUnit.Proofs.Json.Scale
import HeadUnit.Proofs.Json.Text
import HeadUnit.Proofs.Json.Tokens
import HeadUnit.Proofs.KeyTable.Lookup
import HeadUnit.Proofs.KeyTable.Valid
import HeadUnit.Proofs.Members.Ascending
import HeadUnit.Proofs.Message.Bytes
import HeadUnit.Proofs.Message.Parts
import HeadUnit.Proofs.Message.RoundTrip
import HeadUnit.Proofs.Params.Built
import HeadUnit.Proofs.Params.Edits
import HeadUnit.Proofs.Policy.Rules
import HeadUnit.Proofs.Policy.Verdicts
import HeadUnit.Proofs.Registry.Inverse
import HeadUnit.Proofs.Registry.Valid
import HeadUnit.Proofs.Text.Lines
import HeadUnit.Proofs.Text.Utf8
import HeadUnit.Proofs.Value.Parts
import HeadUnit.Proofs.Value.Paths
import HeadUnit.Proofs.Value.Relay
import HeadUnit.Proofs.Value.RoundTrip
import HeadUnit.Proofs.Value.Text
import HeadUnit.Proofs.Value.WellFormed
import HeadUnit.Proofs.Vocabulary.Distinct
import HeadUnit.Proofs.WireType.Canonical
import HeadUnit.Proofs.WireType.Lawful
import HeadUnit.Proofs.WireType.Plain
import HeadUnit.Proofs.WireType.RoundTrip
import HeadUnit.Proofs.WireType.Routes
import HeadUnit.Proofs.WireType.Trim
import HeadUnit.Registry
import HeadUnit.Text.Lines
import HeadUnit.Text.Quoted
import HeadUnit.Text.Shown
import HeadUnit.Value
import HeadUnit.Version
import HeadUnit.Vocabulary
import HeadUnit.WireType
import HeadUnit.Yaml.Integer
import HeadUnit.Yaml.Node
import HeadUnit.Yaml.Node.Reader
import HeadUnit.Yaml.Place
import HeadUnit.Yaml.Scalar.Block
import HeadUnit.Yaml.Scalar.Gap
import HeadUnit.Yaml.Scalar.Plain
import HeadUnit.Yaml.Scalar.Quoted
import HeadUnit.Yaml.Tag
import HeadUnit.Yaml.Token
import HeadUnit.Yaml.Token.Directive
import HeadUnit.Yaml.Token.Lexer
