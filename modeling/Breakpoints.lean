import Breakpoints.Binary64
import Breakpoints.Binding
import Breakpoints.Breakpoint
import Breakpoints.Channel
import Breakpoints.Config
import Breakpoints.Debugger
import Breakpoints.Decimal.Printing
import Breakpoints.Decimal.Rounding
import Breakpoints.Dialogue
import Breakpoints.Document
import Breakpoints.Document.Config
import Breakpoints.Document.Definition
import Breakpoints.Event
import Breakpoints.Fault
import Breakpoints.Frame
import Breakpoints.LineCheck
import Breakpoints.LineCounts
import Breakpoints.Notice
import Breakpoints.Registry
import Breakpoints.Script.Comparison
import Breakpoints.Script.Guest
import Breakpoints.Script.Operand
import Breakpoints.Session
import Breakpoints.Source
import Breakpoints.Table
import Breakpoints.Tables
import Breakpoints.Template
import Breakpoints.Template.Rendering
import Breakpoints.Text.Alphanumeric
import Breakpoints.Text.Blank
import Breakpoints.Text.Numeral
import Breakpoints.Text.Ranges
import Breakpoints.Value
import Breakpoints.Value.Display
import Breakpoints.Proofs.Dialogue
import Breakpoints.Proofs.Dialogue.Scene
import Breakpoints.Proofs.Registry.Contents
import Breakpoints.Proofs.Registry.Above
import Breakpoints.Proofs.Registry.History
import Breakpoints.Proofs.Registry.Counts
import Breakpoints.Proofs.Registry.FlatMap
import Breakpoints.Proofs.Registry.Hits
import Breakpoints.Proofs.Resolution
import Breakpoints.Proofs.Binding.Stretch
import Breakpoints.Proofs.Registry.Agreement
import Breakpoints.Proofs.Caching
import Breakpoints.Proofs.Session.Steps
import Breakpoints.Proofs.Session.History
import Breakpoints.Proofs.Session.Turns
import Breakpoints.Proofs.Session.Hits
import Breakpoints.Proofs.Session.Reports
import Breakpoints.Proofs.Session.Sharing
import Breakpoints.Proofs.Session.Removal
import Breakpoints.Proofs.Session.Caching
import Breakpoints.Proofs.Session.Ungated
import Breakpoints.Proofs.Workbench
import Breakpoints.Proofs.Workbench.Isolation
import Breakpoints.Proofs.Workbench.References
import Breakpoints.Proofs.Workbench.Reset
import Breakpoints.Proofs.Template.Pieces
import Breakpoints.Proofs.Template.Segments
import Breakpoints.Proofs.Template.Rendering
import Breakpoints.Proofs.LineCheck.Course
import Breakpoints.Proofs.LineCheck.Protocol
import Breakpoints.Proofs.LineCheck.Altered
import Breakpoints.Proofs.Workbench.Protocol
import Breakpoints.Proofs.Debugger.Commands
import Breakpoints.Proofs.Debugger.Separation
import Breakpoints.Proofs.Debugger.Attribution
import Breakpoints.Proofs.Workbench.Lines
import Breakpoints.Proofs.Workbench.Definitions
import Breakpoints.Proofs.Workbench.Refusals
import Breakpoints.Proofs.Debugger.Room
import Breakpoints.Proofs.Debugger.Omission
import Breakpoints.Proofs.Guarded.Program
import Breakpoints.Proofs.Guarded.Scanner
import Breakpoints.Proofs.Guarded.Store
import Breakpoints.Proofs.Guarded.Check
import Breakpoints.Proofs.Guarded.Debugger
import Breakpoints.Proofs.Guarded.Session
import Breakpoints.Proofs.Text.Word
import Breakpoints.Proofs.Text.Encoding
import Breakpoints.Proofs.Script.Operand
import Breakpoints.Proofs.Script.Comparison
import Breakpoints.Proofs.Script.Literal
import Breakpoints.Proofs.Debugger.HitConditions
import Breakpoints.Proofs.Decimal.Rounding
import Breakpoints.Proofs.Decimal.Numeral
import Breakpoints.Proofs.Binary64
import Breakpoints.Proofs.Value.Display
