import AgentWorkbench.Api.MediaType
import AgentWorkbench.Api.Router
import AgentWorkbench.Api.Sheets
import AgentWorkbench.Api.Target
import AgentWorkbench.Cli.Arguments
import AgentWorkbench.Cli.Directory
import AgentWorkbench.Cli.Run
import AgentWorkbench.Config
import AgentWorkbench.Extraction.Handler
import AgentWorkbench.Extraction.Pipeline
import AgentWorkbench.Frame.Basic
import AgentWorkbench.Frame.Scanner
import AgentWorkbench.Frame.Strip
import AgentWorkbench.Graph.Basic
import AgentWorkbench.Graph.Json
import AgentWorkbench.Instrument.Basic
import AgentWorkbench.Instrument.Hook
import AgentWorkbench.Instrument.Imports
import AgentWorkbench.Instrument.Insertion
import AgentWorkbench.Instrument.Placement
import AgentWorkbench.Instrument.Routine
import AgentWorkbench.Json.Number
import AgentWorkbench.Json.Printer
import AgentWorkbench.Json.Reader
import AgentWorkbench.Json.Record
import AgentWorkbench.Json.Value
import AgentWorkbench.Main
import AgentWorkbench.Number.Binary64
import AgentWorkbench.Number.Bounded
import AgentWorkbench.Number.Shortest
import AgentWorkbench.Python.Cursor
import AgentWorkbench.Python.Definition
import AgentWorkbench.Python.Expr
import AgentWorkbench.Python.Grammar
import AgentWorkbench.Python.Grammar.Basic
import AgentWorkbench.Python.Grammar.Expression
import AgentWorkbench.Python.Grammar.Pattern
import AgentWorkbench.Python.Grammar.Statement
import AgentWorkbench.Python.Lexer
import AgentWorkbench.Python.Literal
import AgentWorkbench.Python.Syntax
import AgentWorkbench.Python.Token
import AgentWorkbench.Server.Basic
import AgentWorkbench.Server.Conversation
import AgentWorkbench.Session.Basic
import AgentWorkbench.Session.Error
import AgentWorkbench.Session.Message
import AgentWorkbench.Session.Output
import AgentWorkbench.Session.Phase
import AgentWorkbench.Session.Plan
import AgentWorkbench.Session.Reader
import AgentWorkbench.Session.Stdin
import AgentWorkbench.Sheet.EnvFile
import AgentWorkbench.Sheet.SourceFile
import AgentWorkbench.Store.Basic
import AgentWorkbench.Store.Faulty
import AgentWorkbench.Store.InMemory
import AgentWorkbench.Store.JulianDay
import AgentWorkbench.Store.Relational
import AgentWorkbench.Store.Timestamp
import AgentWorkbench.Text.Blank
import AgentWorkbench.Text.Identifier
import AgentWorkbench.Text.Lines
import AgentWorkbench.Text.Search
import AgentWorkbench.Text.Utf8
import AgentWorkbench.Worker.Script
import AgentWorkbench.Workspace.Basic
import AgentWorkbench.Workspace.FileError
import AgentWorkbench.Workspace.Path
import AgentWorkbench.Workspace.Shell
import AgentWorkbench.Proofs.Frame.Sentinel
import AgentWorkbench.Proofs.Text.Lines
import AgentWorkbench.Proofs.Frame.Closings
import AgentWorkbench.Proofs.Frame.Growing
import AgentWorkbench.Proofs.Frame.Agreement
import AgentWorkbench.Proofs.Frame.Blocks
import AgentWorkbench.Proofs.Frame.Cuts
import AgentWorkbench.Proofs.Session.Output
import AgentWorkbench.Proofs.Session.Effects
import AgentWorkbench.Proofs.Session.History
import AgentWorkbench.Proofs.Session.Publication
import AgentWorkbench.Proofs.Instrument.Boundary
import AgentWorkbench.Proofs.Instrument.Idempotence
import AgentWorkbench.Proofs.Session.Record
import AgentWorkbench.Proofs.Json.Layout
import AgentWorkbench.Proofs.Frame.Wrapping
import AgentWorkbench.Proofs.Graph.RoundTrip
import AgentWorkbench.Proofs.Python.Expressions
import AgentWorkbench.Proofs.Python.File
import AgentWorkbench.Proofs.Store.Reading
import AgentWorkbench.Proofs.Session.Course
import AgentWorkbench.Proofs.Workspace.Uploads
import AgentWorkbench.Proofs.Store.Agreement
import AgentWorkbench.Proofs.Extraction.Recovery
import AgentWorkbench.Proofs.Store.Writes
import AgentWorkbench.Proofs.Server.Isolation
import AgentWorkbench.Proofs.Server.Names
import AgentWorkbench.Proofs.Server.Ended
import AgentWorkbench.Proofs.Frame.Trimmed
import AgentWorkbench.Proofs.Session.Accumulation
import AgentWorkbench.Proofs.Session.Connection
import AgentWorkbench.Proofs.Text.Chunks
import AgentWorkbench.Proofs.Instrument.Counting
import AgentWorkbench.Proofs.Instrument.Decorators
import AgentWorkbench.Proofs.Python.Verbatim
import AgentWorkbench.Proofs.Number.Whole
import AgentWorkbench.Proofs.Extraction.Shape
import AgentWorkbench.Proofs.Extraction.Sender
import AgentWorkbench.Proofs.Extraction.Prompt
import AgentWorkbench.Proofs.Sheet.EnvFile
import AgentWorkbench.Proofs.Python.Docstring
import AgentWorkbench.Proofs.Store.Gregorian
import AgentWorkbench.Proofs.Store.RunHistory
import AgentWorkbench.Proofs.Python.Traversal
import AgentWorkbench.Proofs.Workspace.Confinement
import AgentWorkbench.Proofs.Python.Headers
import AgentWorkbench.Proofs.Instrument.Prologue
import AgentWorkbench.Proofs.Instrument.SameGraph
