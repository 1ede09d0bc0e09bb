import ScriptWorker.Channel.Delivery
import ScriptWorker.Channel.Line
import ScriptWorker.Channel.Sink
import ScriptWorker.Config.Choice
import ScriptWorker.Config.Files
import ScriptWorker.Config.Flags
import ScriptWorker.Config.Layer
import ScriptWorker.Config.Load
import ScriptWorker.Config.Settings
import ScriptWorker.Config.Variables
import ScriptWorker.Json.Fault
import ScriptWorker.Json.Printer
import ScriptWorker.Json.Reader
import ScriptWorker.Json.Record
import ScriptWorker.Json.Value
import ScriptWorker.Loading.Bridge
import ScriptWorker.Loading.Conversion
import ScriptWorker.Loading.Error
import ScriptWorker.Loading.Loaded
import ScriptWorker.Loading.Signature
import ScriptWorker.Main
import ScriptWorker.Message.Envelope
import ScriptWorker.Message.Inbound
import ScriptWorker.Message.Outbound
import ScriptWorker.Numeric.Binary64
import ScriptWorker.Numeric.Decimal
import ScriptWorker.Program.Bootstrap
import ScriptWorker.Program.Moment
import ScriptWorker.Program.Run
import ScriptWorker.Proofs.Channel.Conservation
import ScriptWorker.Proofs.Channel.Decoding
import ScriptWorker.Proofs.Channel.Emission
import ScriptWorker.Proofs.Channel.Framing
import ScriptWorker.Proofs.Channel.Running
import ScriptWorker.Proofs.Channel.Segments
import ScriptWorker.Proofs.Channel.Terminators
import ScriptWorker.Proofs.Config.Layers
import ScriptWorker.Proofs.Config.Literals
import ScriptWorker.Proofs.Config.Precedence
import ScriptWorker.Proofs.Config.Scalars
import ScriptWorker.Proofs.Config.Spelling
import ScriptWorker.Proofs.Config.Verbatim
import ScriptWorker.Proofs.Json.Members
import ScriptWorker.Proofs.Json.Numbers
import ScriptWorker.Proofs.Json.RoundTrip
import ScriptWorker.Proofs.Json.Strings
import ScriptWorker.Proofs.Json.Texts
import ScriptWorker.Proofs.Loading.Encoding
import ScriptWorker.Proofs.Loading.EntryPoints
import ScriptWorker.Proofs.Loading.Exports
import ScriptWorker.Proofs.Loading.Extraction
import ScriptWorker.Proofs.Loading.Identity
import ScriptWorker.Proofs.Loading.Losses
import ScriptWorker.Proofs.Loading.Messages
import ScriptWorker.Proofs.Loading.RoundTrip
import ScriptWorker.Proofs.Loading.Wrapping
import ScriptWorker.Proofs.Message.Acceptance
import ScriptWorker.Proofs.Message.Lines
import ScriptWorker.Proofs.Message.RoundTrip
import ScriptWorker.Proofs.Message.Tuples
import ScriptWorker.Proofs.Numeric.Nearest
import ScriptWorker.Proofs.Script.Calls
import ScriptWorker.Proofs.Script.Entries
import ScriptWorker.Proofs.Script.Keys
import ScriptWorker.Proofs.Script.Raising
import ScriptWorker.Proofs.Text.Ascii
import ScriptWorker.Proofs.Text.Utf8
import ScriptWorker.Proofs.Worker.Calls
import ScriptWorker.Proofs.Worker.ClosedForm
import ScriptWorker.Proofs.Worker.Course
import ScriptWorker.Proofs.Worker.Effective
import ScriptWorker.Proofs.Worker.Logging
import ScriptWorker.Proofs.Worker.Opening
import ScriptWorker.Proofs.Worker.Phase
import ScriptWorker.Proofs.Worker.Policy
import ScriptWorker.Proofs.Worker.Record
import ScriptWorker.Proofs.Worker.Refusal
import ScriptWorker.Proofs.Worker.Serving
import ScriptWorker.Proofs.Worker.Turn
import ScriptWorker.Script.Action
import ScriptWorker.Script.Activation
import ScriptWorker.Script.Builtin
import ScriptWorker.Script.Bytes
import ScriptWorker.Script.Chunk
import ScriptWorker.Script.Code
import ScriptWorker.Script.Compile
import ScriptWorker.Script.Grammar
import ScriptWorker.Script.Heap
import ScriptWorker.Script.Host
import ScriptWorker.Script.Lexer
import ScriptWorker.Script.Library.Basic
import ScriptWorker.Script.Library.CodePoints
import ScriptWorker.Script.Library.Coroutines
import ScriptWorker.Script.Library.Files
import ScriptWorker.Script.Library.Format
import ScriptWorker.Script.Library.Initial
import ScriptWorker.Script.Library.Mathematics
import ScriptWorker.Script.Library.Modules
import ScriptWorker.Script.Library.Output
import ScriptWorker.Script.Library.Packing
import ScriptWorker.Script.Library.Pattern
import ScriptWorker.Script.Library.Processes
import ScriptWorker.Script.Library.Start
import ScriptWorker.Script.Library.Tables
import ScriptWorker.Script.Library.Texts
import ScriptWorker.Script.Machine
import ScriptWorker.Script.Numeral
import ScriptWorker.Script.Operate
import ScriptWorker.Script.Reading
import ScriptWorker.Script.Scope
import ScriptWorker.Script.Session
import ScriptWorker.Script.Syntax
import ScriptWorker.Script.System
import ScriptWorker.Script.Table
import ScriptWorker.Script.Token
import ScriptWorker.Script.Value
import ScriptWorker.Text.Blank
import ScriptWorker.Text.Hex
import ScriptWorker.Text.Quoted
import ScriptWorker.Text.Ranges
import ScriptWorker.Text.Utf8
import ScriptWorker.Text.Word
import ScriptWorker.Toml.Document
import ScriptWorker.Toml.Scalar
import ScriptWorker.Trace
import ScriptWorker.Trace.Filter
import ScriptWorker.Trace.Line
import ScriptWorker.Worker.Protocol
