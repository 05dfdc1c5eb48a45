import StepCode.Bootstrap
import StepCode.CommandLine.Arguments
import StepCode.CommandLine.Run
import StepCode.Compiled.Basic
import StepCode.Compiled.Lowering
import StepCode.Compiled.OfTarget
import StepCode.Decimal.Binary
import StepCode.Decimal.Reading
import StepCode.Decimal.Shortest
import StepCode.Decimal.Style
import StepCode.Files
import StepCode.Files.Folder
import StepCode.Form.Basic
import StepCode.Form.Compact
import StepCode.Form.Reader
import StepCode.Form.Token
import StepCode.Host.Basic
import StepCode.Host.Load
import StepCode.Host.Tick
import StepCode.Json.Basic
import StepCode.Json.Cursor
import StepCode.Json.NumberReader
import StepCode.Json.Printer
import StepCode.Json.Reader
import StepCode.Main
import StepCode.Marker
import StepCode.Number
import StepCode.Operation.Basic
import StepCode.Operation.Dispatch
import StepCode.Operation.Operator
import StepCode.Operation.StandardBlock
import StepCode.Palette
import StepCode.ParseError
import StepCode.Project.Basic
import StepCode.Project.Block
import StepCode.Project.OfJson
import StepCode.Project.ToJson
import StepCode.Rebuild.Basic
import StepCode.Rebuild.FreshId
import StepCode.Rebuild.Layout
import StepCode.Rebuild.Placeholder
import StepCode.Rebuild.Report
import StepCode.Routine.Activation
import StepCode.Routine.Basic
import StepCode.Routine.Evaluate
import StepCode.Routine.Load
import StepCode.Routine.Run
import StepCode.Routine.Support
import StepCode.Script.Basic
import StepCode.Script.Builtin
import StepCode.Script.Parser
import StepCode.Script.Printer
import StepCode.Settings
import StepCode.Table
import StepCode.Text.Affix
import StepCode.Text.Base64
import StepCode.Text.Blank
import StepCode.Text.Case
import StepCode.Text.CaseTable
import StepCode.Text.Position
import StepCode.Thread.Basic
import StepCode.Thread.Error
import StepCode.Thread.Interpret
import StepCode.Toml.Basic
import StepCode.Toml.Literal
import StepCode.Toml.Position
import StepCode.Toml.Quoted
import StepCode.Toml.Reader
import StepCode.Toml.Rule
import StepCode.Value
import StepCode.Value.OfJson
import StepCode.Proofs.Lowering.Depth
import StepCode.Proofs.Lowering.Parts
import StepCode.Proofs.Lowering.Reentry
import StepCode.Proofs.Bootstrap
import StepCode.Proofs.Lowering.Output
import StepCode.Proofs.Rebuild.Planted
import StepCode.Proofs.Rebuild.Calls
import StepCode.Proofs.Simulation.Matching
import StepCode.Proofs.Simulation.Steps
import StepCode.Proofs.Simulation.Ticks
import StepCode.Proofs.Decimal
import StepCode.Proofs.Form.Reduction
import StepCode.Proofs.Lowering.Strays
import StepCode.Proofs.Rebuild.Accepted
import StepCode.Proofs.Rebuild.Contents
import StepCode.Proofs.Routine.Driving
import StepCode.Proofs.Routine.Faithful
import StepCode.Proofs.Script.Accepted
import StepCode.Proofs.Script.Inverse
import StepCode.Proofs.Host.Restarts
import StepCode.Proofs.Host.Threads
import StepCode.Proofs.Host.Ticks
import StepCode.Proofs.Host.Suspending
import StepCode.Proofs.Routine.Lookup
import StepCode.Proofs.Host.Transparent
import StepCode.Proofs.Rebuild.Twice
import StepCode.Proofs.Rebuild.ReadBack
import StepCode.Proofs.Simulation.Programs
import StepCode.Proofs.Simulation.Start
import StepCode.Proofs.Host.Variables
import StepCode.Proofs.Decimal.Special
import StepCode.Proofs.Simulation.Lowered
import StepCode.Proofs.Simulation.Modulo
import StepCode.Proofs.Simulation.Runs
import StepCode.Proofs.Rebuild.Extensions
import StepCode.Proofs.Host.Failing
import StepCode.Proofs.Routine.SingleShot
import StepCode.Proofs.Routine.Nesting
import StepCode.Proofs.Rebuild.Positions
import StepCode.Proofs.Comparison
import StepCode.Proofs.Checked.Source
import StepCode.Proofs.Routine.Grounded
