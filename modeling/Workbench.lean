import Workbench.CommandLine.Arguments
import Workbench.CommandLine.Command
import Workbench.CommandLine.Transcript
import Workbench.Decimal.Binary
import Workbench.Decimal.Notation
import Workbench.Directive.Engine
import Workbench.Directive.Record
import Workbench.Engine.Basic
import Workbench.Engine.Solo
import Workbench.Environment.Context
import Workbench.Environment.Library
import Workbench.Json.Coding
import Workbench.Json.Printer
import Workbench.Json.Reader
import Workbench.Json.Value
import Workbench.Main
import Workbench.Run.Alone
import Workbench.Run.Event
import Workbench.Run.Feed
import Workbench.Run.Hub
import Workbench.Run.Job
import Workbench.Run.Mode
import Workbench.Run.Outcome
import Workbench.Run.Readiness
import Workbench.Run.Schedule
import Workbench.Run.Slot
import Workbench.Script.Expectation
import Workbench.Script.Grammar
import Workbench.Script.Lexeme
import Workbench.Script.Machine
import Workbench.Script.Parse
import Workbench.Script.Syntax
import Workbench.Settings.Basic
import Workbench.Settings.Folder
import Workbench.Settings.Layer
import Workbench.Settings.Load
import Workbench.Signal.Bus
import Workbench.Signal.Mailbox
import Workbench.Source.Composition
import Workbench.Source.Fault
import Workbench.Source.LineSet
import Workbench.Source.Place
import Workbench.Table
import Workbench.Text.Blank
import Workbench.Text.Line
import Workbench.Toml.Lexeme
import Workbench.Toml.Reader
import Workbench.Toml.Table
import Workbench.Toml.Value
import Workbench.Workspace.Edit
import Workbench.Workspace.Identity
import Workbench.Workspace.Output
import Workbench.Workspace.Permit
import Workbench.Workspace.Registry
import Workbench.Workspace.State
import Workbench.Workspace.Suspension
import Workbench.Workspace.Testcase
import Workbench.Proofs.Run.Abort
import Workbench.Proofs.Run.Attention
import Workbench.Proofs.Run.Batch
import Workbench.Proofs.Run.Course
import Workbench.Proofs.Run.Exclusion
import Workbench.Proofs.Run.Ownership
import Workbench.Proofs.Run.Refusal
import Workbench.Proofs.Run.Rule
import Workbench.Proofs.Run.Scene
import Workbench.Proofs.Run.Stride
import Workbench.Proofs.Script.Ending
import Workbench.Proofs.Script.Ride
import Workbench.Proofs.Script.Transparency
import Workbench.Proofs.Run.Halt
import Workbench.Proofs.Run.Interruption
import Workbench.Proofs.Run.Pause
import Workbench.Proofs.Script.Likeness
import Workbench.Proofs.Script.Lines
import Workbench.Proofs.Script.Locality
import Workbench.Proofs.Script.Seam
import Workbench.Proofs.Run.LifeCycle
import Workbench.Proofs.Run.Loading
import Workbench.Proofs.Run.Independence
import Workbench.Proofs.Script.Stop
import Workbench.Proofs.Script.Numbering
import Workbench.Proofs.Run.Call
import Workbench.Proofs.Run.Answer
import Workbench.Proofs.Run.Debugging
import Workbench.Proofs.Script.Clock
import Workbench.Proofs.Run.Brief
import Workbench.Proofs.Run.Afresh
import Workbench.Proofs.Run.Attribution
import Workbench.Proofs.Run.Protocol
import Workbench.Proofs.Run.Trial
import Workbench.Proofs.Run.Isolation
import Workbench.Proofs.Run.Belonging
import Workbench.Proofs.Run.Debuggable
import Workbench.Proofs.Script.Snapshot
import Workbench.Proofs.Run.Renewal
import Workbench.Proofs.Run.Selection
import Workbench.Proofs.Run.Detachment
import Workbench.Proofs.Run.Highlight
import Workbench.Proofs.Run.Alone
import Workbench.Proofs.Run.Passage
import Workbench.Proofs.Run.Marking
import Workbench.Proofs.Script.Narration
import Workbench.Proofs.CommandLine.Desk
import Workbench.Proofs.CommandLine.Breakpoints
import Workbench.Proofs.CommandLine.Grading
import Workbench.Proofs.Script.Meaning
import Workbench.Proofs.Script.Stations
import Workbench.Proofs.Signal.Delivery
import Workbench.Proofs.Script.ReadBack
import Workbench.Proofs.Run.Waiting
import Workbench.Proofs.Run.Starvation
import Workbench.Proofs.Run.Sharing
import Workbench.Proofs.Decimal.Whole
import Workbench.Proofs.Script.Number
import Workbench.Proofs.Json.Text
import Workbench.Proofs.Workspace.Encodings
import Workbench.Proofs.Script.Places
