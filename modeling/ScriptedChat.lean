import ScriptedChat.Binary64.Basic
import ScriptedChat.Binary64.Decimal
import ScriptedChat.Binary64.Shortest
import ScriptedChat.Chat
import ScriptedChat.Chat.Echo
import ScriptedChat.CommandLine
import ScriptedChat.CommandLine.Help
import ScriptedChat.CommandLine.Parameter
import ScriptedChat.Completion.Document
import ScriptedChat.Completion.Rendering
import ScriptedChat.Completion.Stream
import ScriptedChat.Delivery
import ScriptedChat.Digest.Base64
import ScriptedChat.Digest.Sha256
import ScriptedChat.Endpoint
import ScriptedChat.EventStream.Frame
import ScriptedChat.EventStream.Production
import ScriptedChat.Failure
import ScriptedChat.FilePath
import ScriptedChat.Filler
import ScriptedChat.Http.Reply
import ScriptedChat.Http.Request
import ScriptedChat.Http.Target
import ScriptedChat.Identifier
import ScriptedChat.Ini.Reader
import ScriptedChat.Json.Basic
import ScriptedChat.Json.Printer
import ScriptedChat.Json.Reader
import ScriptedChat.Json.Record
import ScriptedChat.Json5.Reader
import ScriptedChat.LogLevel
import ScriptedChat.Main
import ScriptedChat.Message.Block
import ScriptedChat.Message.Stream
import ScriptedChat.Proofs.Arithmetic
import ScriptedChat.Proofs.Binary64.Decimal
import ScriptedChat.Proofs.Binary64.Whole
import ScriptedChat.Proofs.Chat
import ScriptedChat.Proofs.Chat.Echo
import ScriptedChat.Proofs.Chat.Headers
import ScriptedChat.Proofs.CommandLine
import ScriptedChat.Proofs.Completion.Agreement
import ScriptedChat.Proofs.Completion.Client
import ScriptedChat.Proofs.Completion.Content
import ScriptedChat.Proofs.Completion.Frames
import ScriptedChat.Proofs.Completion.Grammar
import ScriptedChat.Proofs.Completion.Quotation
import ScriptedChat.Proofs.Delivery.Deadline
import ScriptedChat.Proofs.Delivery.Safety
import ScriptedChat.Proofs.Endpoint
import ScriptedChat.Proofs.EventStream.Wire
import ScriptedChat.Proofs.Filler.Length
import ScriptedChat.Proofs.Identifier
import ScriptedChat.Proofs.Json.Fields
import ScriptedChat.Proofs.Json.OneLine
import ScriptedChat.Proofs.Json.RoundTrip
import ScriptedChat.Proofs.Json.Scalar
import ScriptedChat.Proofs.Message.Agreement
import ScriptedChat.Proofs.Message.Client
import ScriptedChat.Proofs.Message.Content
import ScriptedChat.Proofs.Message.Grammar
import ScriptedChat.Proofs.SameStory
import ScriptedChat.Proofs.Script.Entries
import ScriptedChat.Proofs.Script.Length
import ScriptedChat.Proofs.Script.Pairing
import ScriptedChat.Proofs.Script.Site
import ScriptedChat.Proofs.Script.Spelling
import ScriptedChat.Proofs.Script.Stability
import ScriptedChat.Proofs.Script.WellFormed
import ScriptedChat.Proofs.Settings.Environment
import ScriptedChat.Proofs.Text.CharCut
import ScriptedChat.Proofs.Text.Fragment
import ScriptedChat.Proofs.Text.Pass
import ScriptedChat.Proofs.Text.Utf8
import ScriptedChat.Proofs.Text.WordCut
import ScriptedChat.Proofs.Text.Words
import ScriptedChat.Proofs.ToolArguments
import ScriptedChat.Proofs.Transcript.Identifiers
import ScriptedChat.Proofs.Transcript.Session
import ScriptedChat.Proofs.Turn
import ScriptedChat.Proofs.WordCounts
import ScriptedChat.Ron.Reader
import ScriptedChat.Script.Block
import ScriptedChat.Script.Instruction
import ScriptedChat.Script.Plan
import ScriptedChat.Service
import ScriptedChat.Settings.Basic
import ScriptedChat.Settings.Environment
import ScriptedChat.Settings.Fields
import ScriptedChat.Settings.File
import ScriptedChat.Settings.Layers
import ScriptedChat.Settings.Tree
import ScriptedChat.Settings.YamlFile
import ScriptedChat.Stamp
import ScriptedChat.Text.Blank
import ScriptedChat.Text.Filling
import ScriptedChat.Text.Fragment
import ScriptedChat.Text.Numeral
import ScriptedChat.Text.Search
import ScriptedChat.Text.Utf8
import ScriptedChat.Toml.Reader
import ScriptedChat.Toml.Scalar
import ScriptedChat.Toml.Table
import ScriptedChat.Transcript
import ScriptedChat.Turn
import ScriptedChat.Word
import ScriptedChat.Yaml.Basic
import ScriptedChat.Yaml.BlockScalar
import ScriptedChat.Yaml.Cursor
import ScriptedChat.Yaml.Document
import ScriptedChat.Yaml.Gap
import ScriptedChat.Yaml.Plain
import ScriptedChat.Yaml.Printer
import ScriptedChat.Yaml.Quoted
import ScriptedChat.Yaml.Scalar
import ScriptedChat.Yaml.Tag
import ScriptedChat.Yaml.Tokens
import ScriptedChat.Yaml.Value
