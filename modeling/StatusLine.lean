import StatusLine.Main
import StatusLine.Proofs.Format.Drawn
import StatusLine.Proofs.Line
import StatusLine.Proofs.Format.Numbering
import StatusLine.Proofs.Isolation
import StatusLine.Proofs.Host.Shell
import StatusLine.Proofs.Host.Callback
import StatusLine.Proofs.Json.Integer
import StatusLine.Proofs.Json.Reader
import StatusLine.Proofs.Color
import StatusLine.Proofs.Color.Grammar
import StatusLine.Proofs.Document.Node
import StatusLine.Proofs.Document.Decoder
import StatusLine.Proofs.Document.Record
import StatusLine.Proofs.Config
import StatusLine.Proofs.Files
import StatusLine.Proofs.Program
import StatusLine.Proofs.Snapshot
import StatusLine.Proofs.Runs
import StatusLine.Proofs.Rendering
import StatusLine.Proofs.Host.Command
import StatusLine.Proofs.CommandLine
import StatusLine.Proofs.Files.Place
import StatusLine.Proofs.Callbacks
import StatusLine.Proofs.Dependence
import StatusLine.Proofs.Output
import StatusLine.Proofs.Slots
import StatusLine.Proofs.Omission
import StatusLine.Proofs.Keys
import StatusLine.Proofs.Document.Inside
import StatusLine.Proofs.Format.Value
import StatusLine.Proofs.Sides
import StatusLine.Proofs.Elision
import StatusLine.Proofs.Style
import StatusLine.Proofs.Recoloring
import StatusLine.Proofs.Format.Expansion
import StatusLine.Proofs.WorkingDirectory
