import GuildSandbox.Capability.Surface
import GuildSandbox.CommandLine.Program
import GuildSandbox.Config.Basic
import GuildSandbox.Host.Gate
import GuildSandbox.Interaction.Basic
import GuildSandbox.Interaction.Response
import GuildSandbox.Json.Printer
import GuildSandbox.Json.Reader
import GuildSandbox.Json.Record
import GuildSandbox.Main
import GuildSandbox.Permission.Derived
import GuildSandbox.Run.Dispatch
import GuildSandbox.Run.StepMeter
import GuildSandbox.Script.Builtin
import GuildSandbox.Script.Compile
import GuildSandbox.Script.Evaluate
import GuildSandbox.Script.Interruption
import GuildSandbox.Script.Lexer
import GuildSandbox.Script.Operator
import GuildSandbox.Script.Parser
import GuildSandbox.Script.Place
import GuildSandbox.Script.Program
import GuildSandbox.Script.Size
import GuildSandbox.Store.FileTree
import GuildSandbox.Store.Guild
import GuildSandbox.Time.Rfc3339
import GuildSandbox.Toml.Reader
import GuildSandbox.Value.Plain
import GuildSandbox.Proofs.Text.Digits
import GuildSandbox.Proofs.Json.Literal
import GuildSandbox.Proofs.Json.RoundTrip
import GuildSandbox.Proofs.Value.Persistence
import GuildSandbox.Proofs.Time.Calendar
import GuildSandbox.Proofs.Time.Rfc3339
import GuildSandbox.Proofs.Store.Lines
import GuildSandbox.Proofs.Store.Keyspace
import GuildSandbox.Proofs.Store.Opening
import GuildSandbox.Proofs.Store.Agreement
import GuildSandbox.Proofs.Host.Actions
import GuildSandbox.Proofs.Host.Answers
import GuildSandbox.Proofs.Host.Gate
import GuildSandbox.Proofs.Capability.Requirement
import GuildSandbox.Proofs.Capability.Session
import GuildSandbox.Proofs.Capability.Cancelled
import GuildSandbox.Proofs.Capability.CheckedCall
import GuildSandbox.Proofs.Capability.Mutation
import GuildSandbox.Proofs.Script.Evaluation
import GuildSandbox.Proofs.Script.HostFailure
import GuildSandbox.Proofs.Capability.Kept
import GuildSandbox.Proofs.Capability.Answered
import GuildSandbox.Proofs.Value.Views
import GuildSandbox.Proofs.Tenancy.Agreement
import GuildSandbox.Proofs.Tenancy.Hosts
import GuildSandbox.Proofs.Tenancy.Calls
import GuildSandbox.Proofs.Tenancy.Isolation
import GuildSandbox.Proofs.Store.Lookup
import GuildSandbox.Proofs.Store.Expiry
import GuildSandbox.Proofs.Store.Holding
import GuildSandbox.Proofs.Store.Commands
import GuildSandbox.Proofs.Store.Counter
import GuildSandbox.Proofs.Value.Encodings
import GuildSandbox.Proofs.Value.Stored
import GuildSandbox.Proofs.Store.Visits
import GuildSandbox.Proofs.Store.Standing
import GuildSandbox.Proofs.Number.Sum
import GuildSandbox.Proofs.Number.Length
import GuildSandbox.Proofs.Value.NumberText
import GuildSandbox.Proofs.Store.Readable
import GuildSandbox.Proofs.Run.Turns
import GuildSandbox.Proofs.Run.Clocks
import GuildSandbox.Proofs.Run.Cancellation
import GuildSandbox.Proofs.Store.Operations
import GuildSandbox.Proofs.Store.Labels
import GuildSandbox.Proofs.Store.Places
import GuildSandbox.Proofs.Tenancy.Stores
import GuildSandbox.Proofs.Capability.Recorded
import GuildSandbox.Proofs.Script.History
import GuildSandbox.Proofs.Run.Notice
import GuildSandbox.Proofs.Json.Stable
import GuildSandbox.Proofs.Entity.Formats
import GuildSandbox.Proofs.Host.PendingCall
import GuildSandbox.Proofs.Host.Orderly
import GuildSandbox.Proofs.Host.Interleaving
import GuildSandbox.Proofs.Capability.Truthful
import GuildSandbox.Proofs.Run.Lifecycle
import GuildSandbox.Proofs.Store.Frame
import GuildSandbox.Proofs.Capability.Frame
import GuildSandbox.Proofs.Store.Pattern
import GuildSandbox.Proofs.Value.Decoded
import GuildSandbox.Proofs.Number.Exact
import GuildSandbox.Proofs.Number.Nearest
import GuildSandbox.Proofs.Value.WholeNumber
import GuildSandbox.Proofs.Value.PlainRoundTrip
import GuildSandbox.Proofs.Store.Calls
import GuildSandbox.Proofs.Store.Quota
import GuildSandbox.Proofs.Text.ByteOrder
import GuildSandbox.Proofs.Store.Search
import GuildSandbox.Proofs.Text.ByteLines
import GuildSandbox.Proofs.Store.Litter
import GuildSandbox.Proofs.Script.Recovery
import GuildSandbox.Proofs.Run.Guards
import GuildSandbox.Proofs.Run.Metering
import GuildSandbox.Proofs.Capability.Lifetime
import GuildSandbox.Proofs.Number.Integer
import GuildSandbox.Proofs.Interaction.Options
import GuildSandbox.Proofs.Capability.Argument
import GuildSandbox.Proofs.Host.Judgement
import GuildSandbox.Proofs.CommandLine.Arguments
import GuildSandbox.Proofs.Capability.Payload
