import Switchboard.Address
import Switchboard.Arena
import Switchboard.Async
import Switchboard.Behavior
import Switchboard.Behavior.Scripting
import Switchboard.Call
import Switchboard.CallTable
import Switchboard.Catalog
import Switchboard.Chronicle
import Switchboard.Clock
import Switchboard.Command
import Switchboard.Config
import Switchboard.Connection
import Switchboard.Decimal.Binary64
import Switchboard.Decimal.Grisu
import Switchboard.Decimal.Integer
import Switchboard.Decimal.Layout
import Switchboard.Decimal.Reading
import Switchboard.Decimal.Shortest
import Switchboard.Decimal.Stepwise
import Switchboard.Document.Behavior
import Switchboard.Document.Error
import Switchboard.Document.Frame
import Switchboard.Document.Report
import Switchboard.Document.Script
import Switchboard.Document.Value
import Switchboard.Duration
import Switchboard.Error
import Switchboard.Evaluation
import Switchboard.Executor
import Switchboard.Fault
import Switchboard.Frame
import Switchboard.FrameStack
import Switchboard.HandOff
import Switchboard.Iteration
import Switchboard.Json
import Switchboard.Keyed
import Switchboard.LogLevel
import Switchboard.Named
import Switchboard.Node
import Switchboard.Preserves
import Switchboard.Preserves.Reader
import Switchboard.Program
import Switchboard.Proofs.Abstraction
import Switchboard.Proofs.Acceptance
import Switchboard.Proofs.Addresses
import Switchboard.Proofs.Answers
import Switchboard.Proofs.Arenas
import Switchboard.Proofs.Awaiting
import Switchboard.Proofs.Blueprints
import Switchboard.Proofs.Builds
import Switchboard.Proofs.Cells
import Switchboard.Proofs.Changes
import Switchboard.Proofs.Coherence
import Switchboard.Proofs.ControlWords
import Switchboard.Proofs.Convergence
import Switchboard.Proofs.Counterparts
import Switchboard.Proofs.Cursors
import Switchboard.Proofs.Custody
import Switchboard.Proofs.Deadlines
import Switchboard.Proofs.Delivery
import Switchboard.Proofs.Descents
import Switchboard.Proofs.Dialogues
import Switchboard.Proofs.DirectEvaluation
import Switchboard.Proofs.Driving
import Switchboard.Proofs.Emissions
import Switchboard.Proofs.Excerpts
import Switchboard.Proofs.Executions
import Switchboard.Proofs.Executors
import Switchboard.Proofs.Handles
import Switchboard.Proofs.HandingOver
import Switchboard.Proofs.Lifecycles
import Switchboard.Proofs.Likeness
import Switchboard.Proofs.Operations
import Switchboard.Proofs.Origins
import Switchboard.Proofs.PreservesText
import Switchboard.Proofs.Properties
import Switchboard.Proofs.Pruning
import Switchboard.Proofs.Refusals
import Switchboard.Proofs.Registrations
import Switchboard.Proofs.Releases
import Switchboard.Proofs.ScriptHistories
import Switchboard.Proofs.ScriptShapes
import Switchboard.Proofs.ScriptUnits
import Switchboard.Proofs.Scripting
import Switchboard.Proofs.SelfWaits
import Switchboard.Proofs.Separation
import Switchboard.Proofs.Skeletons
import Switchboard.Proofs.Snapshots
import Switchboard.Proofs.Sources
import Switchboard.Proofs.Stages
import Switchboard.Proofs.Standpoints
import Switchboard.Proofs.StoredText
import Switchboard.Proofs.StoredValues
import Switchboard.Proofs.Succession
import Switchboard.Proofs.Suspension
import Switchboard.Proofs.Tables
import Switchboard.Proofs.Tenures
import Switchboard.Proofs.Traffic
import Switchboard.Proofs.Trapping
import Switchboard.Proofs.Trees
import Switchboard.Proofs.Turns
import Switchboard.Proofs.UnitInvariants
import Switchboard.Proofs.Waits
import Switchboard.Proofs.Wiring
import Switchboard.Root
import Switchboard.Root.Dispatch
import Switchboard.Root.Host
import Switchboard.Root.Snapshot
import Switchboard.Root.Standard
import Switchboard.Root.Tree
import Switchboard.Routine
import Switchboard.Scheduler
import Switchboard.Scope
import Switchboard.Script
import Switchboard.Script.Descent
import Switchboard.Script.Reader
import Switchboard.StandardControl
import Switchboard.Text.Blank
import Switchboard.Text.DecimalDigit
import Switchboard.Text.Quoted
import Switchboard.Text.Ranges
import Switchboard.Text.Unseen
import Switchboard.Turn
import Switchboard.Value
import Switchboard.Value.Display
import Switchboard.Value.Stored
import Switchboard.Value.Views
import Switchboard.Proofs.Combinators
import Switchboard.Proofs.Enclosure
import Switchboard.Proofs.Halting
import Switchboard.Proofs.ListText
