import StanzaSchema.Artifact
import StanzaSchema.Column.Basic
import StanzaSchema.Column.DataType
import StanzaSchema.Column.Tracking
import StanzaSchema.Command.Arguments
import StanzaSchema.Command.Output
import StanzaSchema.Command.Run
import StanzaSchema.Command.Usage
import StanzaSchema.Event
import StanzaSchema.Failure
import StanzaSchema.File.Fault
import StanzaSchema.File.Path
import StanzaSchema.File.System
import StanzaSchema.File.Volume
import StanzaSchema.Json.Numeral
import StanzaSchema.Json.Reader
import StanzaSchema.Json.Shape
import StanzaSchema.Json.Text
import StanzaSchema.Json.Value
import StanzaSchema.Line.Basic
import StanzaSchema.Line.Directive
import StanzaSchema.Line.Grammar
import StanzaSchema.Line.Property
import StanzaSchema.Main
import StanzaSchema.Model.Basic
import StanzaSchema.Model.Derivation
import StanzaSchema.Model.Layout
import StanzaSchema.Model.Load
import StanzaSchema.Number.Binary64
import StanzaSchema.Number.Decimal
import StanzaSchema.Number.Digits
import StanzaSchema.Number.Power
import StanzaSchema.Number.Shortest
import StanzaSchema.Number.Text
import StanzaSchema.OrderedMap
import StanzaSchema.Policy.Basic
import StanzaSchema.Policy.Template
import StanzaSchema.Proofs.FileLog
import StanzaSchema.Proofs.Traversal
import StanzaSchema.Reading.Frontier
import StanzaSchema.Reading.Position
import StanzaSchema.Reading.Run
import StanzaSchema.Reading.Session
import StanzaSchema.Reading.Step
import StanzaSchema.Reading.Warning
import StanzaSchema.Settings.Basic
import StanzaSchema.Settings.Environment
import StanzaSchema.Settings.Logging
import StanzaSchema.Settings.Reader
import StanzaSchema.Table
import StanzaSchema.Text.Cut
import StanzaSchema.Text.Lines
import StanzaSchema.Text.Order
import StanzaSchema.Text.Printable
import StanzaSchema.Text.Quoted
import StanzaSchema.Text.WhiteSpace
import StanzaSchema.Toml.Lexeme
import StanzaSchema.Toml.Reader
import StanzaSchema.Toml.Value
import StanzaSchema.View
import StanzaSchema.Proofs.Routing
import StanzaSchema.Proofs.Transcript
import StanzaSchema.Proofs.Coherence
import StanzaSchema.Proofs.Effects
import StanzaSchema.Proofs.Stanzas
import StanzaSchema.Proofs.Authorization
import StanzaSchema.Proofs.Columns
import StanzaSchema.Proofs.JsonText
import StanzaSchema.Proofs.Loading
import StanzaSchema.Proofs.Tidiness
import StanzaSchema.Proofs.Legibility
import StanzaSchema.Proofs.Likeness
import StanzaSchema.Proofs.RoundTrip
import StanzaSchema.Proofs.Changes
import StanzaSchema.Proofs.Building
import StanzaSchema.Proofs.Reach
import StanzaSchema.Proofs.Notices
import StanzaSchema.Proofs.Sifting
import StanzaSchema.Proofs.Separation
import StanzaSchema.Proofs.Turns
import StanzaSchema.Proofs.Cutting
import StanzaSchema.Proofs.Outputs
import StanzaSchema.Proofs.Views
import StanzaSchema.Proofs.Drafts
import StanzaSchema.Proofs.Readback
import StanzaSchema.Proofs.Growth
import StanzaSchema.Proofs.Places
import StanzaSchema.Proofs.Flattening
import StanzaSchema.Proofs.Accounting
import StanzaSchema.Proofs.Completion
import StanzaSchema.Proofs.Agreement
import StanzaSchema.Proofs.Naming
import StanzaSchema.Proofs.Repetition
import StanzaSchema.Proofs.ForeignKeys
import StanzaSchema.Proofs.Listing
import StanzaSchema.Proofs.ValueSets
import StanzaSchema.Proofs.Derivation
import StanzaSchema.Proofs.Numerals
import StanzaSchema.Proofs.Settling
import StanzaSchema.Proofs.Codecs
import StanzaSchema.Proofs.Normalizing
import StanzaSchema.Proofs.Directives
import StanzaSchema.Proofs.Expansion
import StanzaSchema.Proofs.Spacing
import StanzaSchema.Proofs.Descriptions
import StanzaSchema.Proofs.Slices
import StanzaSchema.Proofs.Prelude
