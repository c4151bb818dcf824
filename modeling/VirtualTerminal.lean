import VirtualTerminal.Backend.Basic
import VirtualTerminal.Backend.Builtin
import VirtualTerminal.Backend.Chunks
import VirtualTerminal.Backend.Local
import VirtualTerminal.Backend.Merge
import VirtualTerminal.Backend.Reading
import VirtualTerminal.Backend.Registry
import VirtualTerminal.Backend.Scripted
import VirtualTerminal.Cell
import VirtualTerminal.Codec.Cell
import VirtualTerminal.Codec.Config
import VirtualTerminal.Codec.ConfigText
import VirtualTerminal.Codec.Error
import VirtualTerminal.Codec.Event
import VirtualTerminal.Codec.Request
import VirtualTerminal.Codec.Session
import VirtualTerminal.Codec.Style
import VirtualTerminal.Codec.Token
import VirtualTerminal.Color
import VirtualTerminal.CommandLine
import VirtualTerminal.Config
import VirtualTerminal.ContentGate
import VirtualTerminal.Decimal.Nearest
import VirtualTerminal.Decimal.Shortest
import VirtualTerminal.Emulator
import VirtualTerminal.Error
import VirtualTerminal.Escape.Command
import VirtualTerminal.Escape.Machine
import VirtualTerminal.Escape.Parameters
import VirtualTerminal.Escape.Tracker
import VirtualTerminal.Event
import VirtualTerminal.EventQueue
import VirtualTerminal.Following
import VirtualTerminal.Geometry
import VirtualTerminal.Instruction
import VirtualTerminal.Json.Basic
import VirtualTerminal.Json.Number
import VirtualTerminal.Json.Reader
import VirtualTerminal.Json.Writer
import VirtualTerminal.Main
import VirtualTerminal.Manager
import VirtualTerminal.OutputBuffer
import VirtualTerminal.Platform
import VirtualTerminal.Proofs.Addressing
import VirtualTerminal.Proofs.Agreement
import VirtualTerminal.Proofs.Cells
import VirtualTerminal.Proofs.Chunks
import VirtualTerminal.Proofs.Commands
import VirtualTerminal.Proofs.Decoding
import VirtualTerminal.Proofs.Delivery.Basic
import VirtualTerminal.Proofs.Delivery.Ring
import VirtualTerminal.Proofs.Delivery.Run
import VirtualTerminal.Proofs.Delivery.Streaming
import VirtualTerminal.Proofs.Delivery.Waiting
import VirtualTerminal.Proofs.Editing
import VirtualTerminal.Proofs.EventLines
import VirtualTerminal.Proofs.Independence
import VirtualTerminal.Proofs.Interruptions
import VirtualTerminal.Proofs.Json.Lexing
import VirtualTerminal.Proofs.Json.Nesting
import VirtualTerminal.Proofs.Json.Number
import VirtualTerminal.Proofs.Json.RoundTrip
import VirtualTerminal.Proofs.Layout.Row
import VirtualTerminal.Proofs.Layout.Text
import VirtualTerminal.Proofs.Margins
import VirtualTerminal.Proofs.Overflow
import VirtualTerminal.Proofs.Pairing.Line
import VirtualTerminal.Proofs.Pairing.Run
import VirtualTerminal.Proofs.Pairing.Screen
import VirtualTerminal.Proofs.PendingWrap
import VirtualTerminal.Proofs.Printing
import VirtualTerminal.Proofs.Raster.Basic
import VirtualTerminal.Proofs.Raster.Bounds
import VirtualTerminal.Proofs.Raster.Edit
import VirtualTerminal.Proofs.Raster.Grid
import VirtualTerminal.Proofs.Raster.Line
import VirtualTerminal.Proofs.Raster.Refinement
import VirtualTerminal.Proofs.Raster.Rows
import VirtualTerminal.Proofs.Reader
import VirtualTerminal.Proofs.Registers
import VirtualTerminal.Proofs.Registry.Calls
import VirtualTerminal.Proofs.Registry.Memory
import VirtualTerminal.Proofs.Registry.Operations
import VirtualTerminal.Proofs.Registry.Restriction
import VirtualTerminal.Proofs.Registry.Selection
import VirtualTerminal.Proofs.Renditions
import VirtualTerminal.Proofs.Reset
import VirtualTerminal.Proofs.Resizing
import VirtualTerminal.Proofs.Resync
import VirtualTerminal.Proofs.Retention
import VirtualTerminal.Proofs.Rows
import VirtualTerminal.Proofs.Run
import VirtualTerminal.Proofs.SavedCursor
import VirtualTerminal.Proofs.Schema.Completeness
import VirtualTerminal.Proofs.Schema.Normal
import VirtualTerminal.Proofs.Schema.References
import VirtualTerminal.Proofs.Session.Interference
import VirtualTerminal.Proofs.Session.Lifecycle
import VirtualTerminal.Proofs.Session.Rendering
import VirtualTerminal.Proofs.Session.Run
import VirtualTerminal.Proofs.Size
import VirtualTerminal.Proofs.Streams.Buffering
import VirtualTerminal.Proofs.Streams.Merging
import VirtualTerminal.Proofs.Streams.Reads
import VirtualTerminal.Proofs.Strings
import VirtualTerminal.Proofs.Table.Basic
import VirtualTerminal.Proofs.Table.Calls
import VirtualTerminal.Proofs.Table.Cleanup
import VirtualTerminal.Proofs.Table.Room
import VirtualTerminal.Proofs.Table.Run
import VirtualTerminal.Proofs.Tokens
import VirtualTerminal.Proofs.Utf8
import VirtualTerminal.Proofs.WellFormed
import VirtualTerminal.Proofs.Writing
import VirtualTerminal.Rendition
import VirtualTerminal.Runner
import VirtualTerminal.Schema.Draft07
import VirtualTerminal.Schema.Event
import VirtualTerminal.Screen.Basic
import VirtualTerminal.Screen.Edit
import VirtualTerminal.Screen.Line
import VirtualTerminal.Screen.Motion
import VirtualTerminal.Screen.Resize
import VirtualTerminal.Screen.Scroll
import VirtualTerminal.Screen.Write
import VirtualTerminal.Session
import VirtualTerminal.SessionId
import VirtualTerminal.Shell.Arithmetic
import VirtualTerminal.Shell.Builtin
import VirtualTerminal.Shell.Expansion
import VirtualTerminal.Shell.Filter
import VirtualTerminal.Shell.Format
import VirtualTerminal.Shell.Glob
import VirtualTerminal.Shell.Machine
import VirtualTerminal.Shell.Process
import VirtualTerminal.Shell.Reader
import VirtualTerminal.Shell.Signal
import VirtualTerminal.Shell.Syntax
import VirtualTerminal.Shell.Tty
import VirtualTerminal.Shell.Utility
import VirtualTerminal.Streaming
import VirtualTerminal.Style
import VirtualTerminal.Text.Decoder
import VirtualTerminal.Text.Digit
import VirtualTerminal.Text.Lines
import VirtualTerminal.Text.Utf8
import VirtualTerminal.Text.Width
import VirtualTerminal.Text.Width.Ranges
import VirtualTerminal.Token
import VirtualTerminal.Yaml.Cursor
import VirtualTerminal.Yaml.Node
import VirtualTerminal.Yaml.Scalar
import VirtualTerminal.Yaml.Token
