import PoolWatch.Board
import PoolWatch.Call.Error
import PoolWatch.Call.Gateway
import PoolWatch.Command.Arguments
import PoolWatch.Command.Basic
import PoolWatch.Command.Run
import PoolWatch.Config.Convert
import PoolWatch.Config.Json
import PoolWatch.Config.Key
import PoolWatch.Config.Source
import PoolWatch.Config.Tree
import PoolWatch.Display.Encode
import PoolWatch.Display.Model
import PoolWatch.Duration
import PoolWatch.Envelope
import PoolWatch.Files
import PoolWatch.Form
import PoolWatch.Frame
import PoolWatch.Http.Exchange
import PoolWatch.Ini.Reader
import PoolWatch.Json.Basic
import PoolWatch.Json.Failure
import PoolWatch.Json.Numbers
import PoolWatch.Json.Reader
import PoolWatch.Json.Record
import PoolWatch.Json.Skip
import PoolWatch.Json.Strings
import PoolWatch.Json.Structure
import PoolWatch.Json.Writer
import PoolWatch.Main
import PoolWatch.Number.Binary64
import PoolWatch.Number.Extended
import PoolWatch.Number.Integer
import PoolWatch.Number.Radix
import PoolWatch.Number.Shortest
import PoolWatch.Plain.Style
import PoolWatch.Plain.View
import PoolWatch.Poll.Cadence
import PoolWatch.Poll.Loop
import PoolWatch.Poll.Outcome
import PoolWatch.Poll.Poller
import PoolWatch.Pool.Basic
import PoolWatch.Pool.Decode
import PoolWatch.Pool.Encode
import PoolWatch.Pool.Lenient
import PoolWatch.Relay.Error
import PoolWatch.Relay.Handle
import PoolWatch.Relay.Route
import PoolWatch.Rpc.Document
import PoolWatch.Screen.Basic
import PoolWatch.Screen.Draw
import PoolWatch.Settings.Basic
import PoolWatch.Settings.Json
import PoolWatch.Settings.Load
import PoolWatch.Settings.Toml
import PoolWatch.Settings.Tree
import PoolWatch.Text.Blank
import PoolWatch.Text.Cluster
import PoolWatch.Text.Lines
import PoolWatch.Text.Quoted
import PoolWatch.Text.Search
import PoolWatch.Text.Shown
import PoolWatch.Text.Split
import PoolWatch.Text.Utf8
import PoolWatch.Text.Width
import PoolWatch.Timestamp
import PoolWatch.Toml.Reader
import PoolWatch.Toml.Scalars
import PoolWatch.Toml.Strings
import PoolWatch.Toml.Table
import PoolWatch.Toml.Writer
import PoolWatch.Url.Basic
import PoolWatch.Url.Folding
import PoolWatch.Url.Host
import PoolWatch.Url.Percent
import PoolWatch.Url.Punycode
import PoolWatch.Yaml.Reader
import PoolWatch.Yaml.Scalars
import PoolWatch.Proofs.Json.Grammar
import PoolWatch.Proofs.Json.Strings
import PoolWatch.Proofs.Json.Numerals
import PoolWatch.Proofs.Envelope
import PoolWatch.Proofs.Json.Passing
import PoolWatch.Proofs.Json.Records
import PoolWatch.Proofs.Json.Rules
import PoolWatch.Proofs.Json.Written
import PoolWatch.Proofs.Json.Range
import PoolWatch.Proofs.Board.Delivery
import PoolWatch.Proofs.Pool.Language
import PoolWatch.Proofs.Pool.RoundTrip
import PoolWatch.Proofs.Poll.Course
import PoolWatch.Proofs.Poll.Runs
import PoolWatch.Proofs.Poll.Watching
import PoolWatch.Proofs.Poll.Outcome
import PoolWatch.Proofs.Poll.History
import PoolWatch.Proofs.Form
import PoolWatch.Proofs.Http.Exchange
import PoolWatch.Proofs.Relay.Admission
import PoolWatch.Proofs.Rpc.Document
import PoolWatch.Proofs.Relay.Hop
import PoolWatch.Proofs.Relay.View
import PoolWatch.Proofs.Relay.Route
import PoolWatch.Proofs.Json.Spacing
import PoolWatch.Proofs.Json.Edits
import PoolWatch.Proofs.Json.Uniqueness
import PoolWatch.Proofs.Pool.Edits
import PoolWatch.Proofs.Config.Layers
import PoolWatch.Proofs.Files
import PoolWatch.Proofs.Settings.Fields
import PoolWatch.Proofs.Toml.Names
import PoolWatch.Proofs.Settings.Json
import PoolWatch.Proofs.Settings.Layers
import PoolWatch.Proofs.Toml.Strings
import PoolWatch.Proofs.Toml.Lines
import PoolWatch.Proofs.Settings.Written
import PoolWatch.Proofs.Relay.Size
import PoolWatch.Proofs.Board.Independence
import PoolWatch.Proofs.Command.Arguments
import PoolWatch.Proofs.Command.Init
import PoolWatch.Proofs.Command.Status
import PoolWatch.Proofs.Json.Form
import PoolWatch.Proofs.Json.Beginnings
import PoolWatch.Proofs.Json.RecordBeginnings
import PoolWatch.Proofs.Pool.Defects
import PoolWatch.Proofs.Display.Render
import PoolWatch.Proofs.Plain.Terminal
import PoolWatch.Proofs.Plain.Colours
import PoolWatch.Proofs.Screen.Painting
import PoolWatch.Proofs.Screen.Rows
import PoolWatch.Proofs.Screen.Table
import PoolWatch.Proofs.Number.Numerals
import PoolWatch.Proofs.Config.Guesses
import PoolWatch.Proofs.Settings.Texts
import PoolWatch.Proofs.Plain.Lines
import PoolWatch.Proofs.Call.Outcome
import PoolWatch.Proofs.Text.Order
import PoolWatch.Proofs.Json.Order
import PoolWatch.Proofs.Json.Sights
import PoolWatch.Proofs.Pool.Labels
import PoolWatch.Proofs.Envelope.Span
import PoolWatch.Proofs.Rpc.Method
import PoolWatch.Proofs.Json.Gaps
import PoolWatch.Proofs.Pool.Slots
