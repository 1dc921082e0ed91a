import VServer.Build
import VServer.Config
import VServer.Config.Flags
import VServer.Config.Layer
import VServer.Declaration
import VServer.Fault
import VServer.Feature
import VServer.Files
import VServer.Files.Change
import VServer.Indexer
import VServer.Journal
import VServer.Json
import VServer.Json.Decode
import VServer.Json.Double
import VServer.Json.Read
import VServer.Json.Shortest
import VServer.Json.Write
import VServer.LineIndex
import VServer.Main
import VServer.NameMap
import VServer.Outline
import VServer.Outline.Fields
import VServer.Outline.Group
import VServer.Outline.Name
import VServer.Outline.Scope
import VServer.Path
import VServer.Position
import VServer.Position.Wire
import VServer.Program
import VServer.Proofs.Outline.Cursor
import VServer.Proofs.Outline.Place
import VServer.Proofs.Protocol.Frame
import VServer.Proofs.Server.Answers
import VServer.Proofs.Server.Run
import VServer.Proofs.Session.Handled
import VServer.Proofs.Journal.Alike
import VServer.Proofs.Session.Phase
import VServer.Proofs.Session.Queue
import VServer.Proofs.Text.Span
import VServer.Proofs.Token.Scan
import VServer.Protocol.Capability
import VServer.Protocol.Frame
import VServer.Protocol.Message
import VServer.Protocol.Outbox
import VServer.Protocol.Params
import VServer.Registry
import VServer.Server
import VServer.Session
import VServer.Settings
import VServer.SourceFile
import VServer.Symbol
import VServer.Table
import VServer.Text.Blank
import VServer.Text.Letter
import VServer.Text.Lower
import VServer.Text.Quoted
import VServer.Text.Ranges
import VServer.Text.Span
import VServer.Text.Utf8
import VServer.Token
import VServer.Token.Scan
import VServer.Toml
import VServer.Toml.Read
import VServer.TypeText
import VServer.Uri
import VServer.Proofs.Outline.Naming
import VServer.Proofs.Protocol.Framing
import VServer.Proofs.Indexer.Writes
import VServer.Proofs.Outline.Registered
import VServer.Proofs.Table.Register
import VServer.Proofs.Outline.Balanced
import VServer.Proofs.Outline.Grammar
import VServer.Proofs.Outline.RoundTrip
import VServer.Proofs.Session.Reached
import VServer.Proofs.Session.Lifetime
import VServer.Proofs.Session.Answered
import VServer.Proofs.Indexer.Watched
import VServer.Proofs.Session.Start
import VServer.Proofs.Token.Seam
import VServer.Proofs.Outline.Around
import VServer.Proofs.Outline.Locality
import VServer.Proofs.Text.Lines
import VServer.Proofs.Text.Position
import VServer.Proofs.SourceFile.Append
import VServer.Proofs.Session.Degrade
import VServer.Proofs.Token.Comment
import VServer.Proofs.Token.Partition
import VServer.Proofs.Token.Pattern
import VServer.Proofs.Token.Longest
import VServer.Proofs.Json.Plain
import VServer.Proofs.Protocol.Wire
import VServer.Proofs.Outline.Paired
import VServer.Proofs.Outline.StructLine
import VServer.Proofs.Outline.Nesting
import VServer.Proofs.Outline.TypeExpr
import VServer.Proofs.Outline.FieldTail
import VServer.Proofs.Outline.Fork
import VServer.Proofs.SourceFile.Paths
import VServer.Proofs.Indexer.Again
import VServer.Proofs.Indexer.Statics
import VServer.Proofs.Path.Name
import VServer.Proofs.Path.Uri
import VServer.Proofs.Build.Name
import VServer.Proofs.Build.Select
import VServer.Proofs.Server.Fetched
import VServer.Proofs.Server.Malformed
import VServer.Proofs.Protocol.Relay
import VServer.Proofs.Config.Layers
import VServer.Proofs.Files.Leads
import VServer.Proofs.Files.Making
import VServer.Proofs.Journal.NewFile
import VServer.Proofs.Session.JournalFile
import VServer.Proofs.Journal.Lines
import VServer.Proofs.Text.Order
import VServer.Proofs.Table.Registry
import VServer.Proofs.Outline.Progress
import VServer.Proofs.Text.Cut
import VServer.Proofs.Outline.Pointed
import VServer.Proofs.Outline.Careful
import VServer.Proofs.Outline.Counting
import VServer.Proofs.Token.CommentEnd
import VServer.Proofs.Text.Heart
import VServer.Proofs.Protocol.Ids
import VServer.Proofs.Server.Output
