import AppRoutes.Backend
import AppRoutes.Client
import AppRoutes.CommandLine.Arguments
import AppRoutes.CommandLine.Flag
import AppRoutes.CommandLine.Scan
import AppRoutes.Delta.Apply
import AppRoutes.Delta.Basic
import AppRoutes.Delta.Literal
import AppRoutes.Delta.Merge
import AppRoutes.Delta.Resolve
import AppRoutes.Descriptor
import AppRoutes.Descriptor.File
import AppRoutes.Directory
import AppRoutes.Duration.Basic
import AppRoutes.Duration.Literal
import AppRoutes.Duration.Rounding
import AppRoutes.Error
import AppRoutes.Files
import AppRoutes.Http.Answer
import AppRoutes.Http.Exchange
import AppRoutes.Http.Message
import AppRoutes.Http.Remote
import AppRoutes.Http.Url
import AppRoutes.Invocation
import AppRoutes.Json.Node
import AppRoutes.Json.Record
import AppRoutes.Json.Select
import AppRoutes.Json.Token
import AppRoutes.Json.Value
import AppRoutes.Program.Commands
import AppRoutes.Program.Run
import AppRoutes.Program.Session
import AppRoutes.Route.Basic
import AppRoutes.Route.Wire
import AppRoutes.Settings
import AppRoutes.SortedMap
import AppRoutes.Store
import AppRoutes.Terminal.Message
import AppRoutes.Terminal.Plain
import AppRoutes.Terminal.Style
import AppRoutes.Terminal.Table
import AppRoutes.Text.Blank
import AppRoutes.Text.Numeral
import AppRoutes.Text.Split
import AppRoutes.Text.Uppercase
import AppRoutes.Toml.Collection
import AppRoutes.Toml.File
import AppRoutes.Toml.Scalar
import AppRoutes.Toml.Table
import AppRoutes.Toml.Text
import AppRoutes.Main
import AppRoutes.Proofs.Action
import AppRoutes.Proofs.Client
import AppRoutes.Proofs.Delta.Merge
import AppRoutes.Proofs.Delta.Sequence
import AppRoutes.Proofs.Directory
import AppRoutes.Proofs.Error
import AppRoutes.Proofs.Http.Agreement
import AppRoutes.Proofs.Http.Exchange
import AppRoutes.Proofs.Http.Message
import AppRoutes.Proofs.Http.Patch
import AppRoutes.Proofs.Http.WireForm
import AppRoutes.Proofs.Json.Decoding
import AppRoutes.Proofs.Json.Rendering
import AppRoutes.Proofs.Json.Scan
import AppRoutes.Proofs.Json.Tokens
import AppRoutes.Proofs.Route.RoundTrip
import AppRoutes.Proofs.Store.Atomicity
import AppRoutes.Proofs.Store.Operations
import AppRoutes.Proofs.Store.Visits
import AppRoutes.Proofs.Store.Patch
import AppRoutes.Proofs.Store.Run
import AppRoutes.Proofs.Store.Listing
import AppRoutes.Proofs.Store.LastWrite
import AppRoutes.Proofs.Store.Interleaving
import AppRoutes.Proofs.Http.Refusal
import AppRoutes.Proofs.Http.Operations
import AppRoutes.Proofs.Delta.Literal
import AppRoutes.Proofs.Delta.Resolve
import AppRoutes.Proofs.Program.Handler
import AppRoutes.Proofs.Program.Writing
import AppRoutes.Proofs.Store.Submission
import AppRoutes.Proofs.Program.Validation
import AppRoutes.Proofs.Descriptor
import AppRoutes.Proofs.Program.NewRoute
import AppRoutes.Proofs.Program.Precedence
import AppRoutes.Proofs.Http.Url
import AppRoutes.Proofs.Json.Spelling
import AppRoutes.Proofs.Json.Inversion
import AppRoutes.Proofs.Json.Members
import AppRoutes.Proofs.Route.Members
import AppRoutes.Proofs.CommandLine.Items
import AppRoutes.Proofs.CommandLine.Spelling
import AppRoutes.Proofs.CommandLine.Update
import AppRoutes.Proofs.Delta.Overlay
import AppRoutes.Proofs.Program.SetUnset
import AppRoutes.Proofs.Duration.Grammar
import AppRoutes.Proofs.Duration.Reading
import AppRoutes.Proofs.Duration.Chain
import AppRoutes.Proofs.Duration.Rounding
import AppRoutes.Proofs.Duration.WholeCounts
import AppRoutes.Proofs.Duration.Seconds
import AppRoutes.Proofs.CommandLine.Timeout
import AppRoutes.Proofs.Program.Timeout
import AppRoutes.Proofs.Json.Lexemes
import AppRoutes.Proofs.Json.Recognition
import AppRoutes.Proofs.Json.Acceptance
import AppRoutes.Proofs.Route.Envelope
import AppRoutes.Proofs.Http.Explanation
import AppRoutes.Proofs.Narrowing
import AppRoutes.Proofs.Route.Selection
import AppRoutes.Proofs.Program.Endpoint
import AppRoutes.Proofs.Store.Responses
import AppRoutes.Proofs.Delta.Encoding
import AppRoutes.Proofs.Delta.Idle
import AppRoutes.Proofs.Http.Call
import AppRoutes.Proofs.Terminal.Table
import AppRoutes.Proofs.Toml.Spelling
import AppRoutes.Proofs.Toml.Lines
import AppRoutes.Proofs.Descriptor.Formats
import AppRoutes.Proofs.Descriptor.Agreement
