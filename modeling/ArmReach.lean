import ArmReach.CommandLine.Commands
import ArmReach.CommandLine.Flag
import ArmReach.CommandLine.Help
import ArmReach.CommandLine.Literal
import ArmReach.CommandLine.Program
import ArmReach.CommandLine.Session
import ArmReach.Decimal.Basic
import ArmReach.Decimal.Format
import ArmReach.Decimal.Read
import ArmReach.Decimal.Shortest
import ArmReach.Elementary.Arc
import ArmReach.Elementary.Remainder
import ArmReach.Elementary.Trig
import ArmReach.Json.Number
import ArmReach.Json.Syntax
import ArmReach.Json.Value
import ArmReach.Kinematics.Arm
import ArmReach.Kinematics.Chain
import ArmReach.Kinematics.Failure
import ArmReach.Kinematics.JointTable
import ArmReach.Kinematics.Limit
import ArmReach.Kinematics.ModelFile
import ArmReach.Linear.Condition
import ArmReach.Linear.LU
import ArmReach.Linear.Matrix
import ArmReach.Logging.Entry
import ArmReach.Logging.Fields
import ArmReach.Logging.Level
import ArmReach.Logging.Pattern
import ArmReach.Logging.Registry
import ArmReach.Main
import ArmReach.Numeric.Binary64
import ArmReach.Parallel.Groups
import ArmReach.Parallel.Interleaving
import ArmReach.Random.Fnv
import ArmReach.Random.Scramble
import ArmReach.Random.Source
import ArmReach.Regex.Parse
import ArmReach.Regex.Search
import ArmReach.Solver.Basic
import ArmReach.Solver.Constraints
import ArmReach.Solver.Draw
import ArmReach.Solver.Jacobian
import ArmReach.Solver.Region
import ArmReach.Solver.Restart
import ArmReach.Solver.Script
import ArmReach.Spatial.Orientation
import ArmReach.Spatial.Pose
import ArmReach.Spatial.Quaternion
import ArmReach.Spatial.Vector
import ArmReach.Text.Columns
import ArmReach.Text.Printable
import ArmReach.Text.Quote
import ArmReach.Text.Table
import ArmReach.Text.Template
import ArmReach.Text.Width
import ArmReach.Workspace.Drawing
import ArmReach.Workspace.Grid
import ArmReach.Workspace.Plot
import ArmReach.Workspace.Sampler
import ArmReach.Workspace.Summary
import ArmReach.Proofs.Solver.Contract
import ArmReach.Proofs.Solver.RestartLoop
import ArmReach.Proofs.Solver.RestartProtocol
import ArmReach.Proofs.Solver.Jacobian
import ArmReach.Proofs.Solver.Dimensions
import ArmReach.Proofs.Numeric.NotANumber
import ArmReach.Proofs.Solver.DrawRange
import ArmReach.Proofs.Solver.Precision
import ArmReach.Proofs.Random.Redraw
import ArmReach.Proofs.Regex.Matching
import ArmReach.Proofs.Logging.Levels
import ArmReach.Proofs.Kinematics.Representation
import ArmReach.Proofs.Parallel.Cover
import ArmReach.Proofs.Parallel.Schedules
import ArmReach.Proofs.Workspace.Sweep
import ArmReach.Proofs.Workspace.Sampling
import ArmReach.Proofs.Numeric.Rounding
import ArmReach.Proofs.Numeric.Unpacked
import ArmReach.Proofs.Numeric.Operations
import ArmReach.Proofs.Numeric.Parts
import ArmReach.Proofs.Numeric.Order
import ArmReach.Proofs.Workspace.Grid
import ArmReach.Proofs.Spatial.Norm
import ArmReach.Proofs.Elementary.Arc
import ArmReach.Proofs.Spatial.AxisAngle
import ArmReach.Proofs.Spatial.Normalize
import ArmReach.Proofs.Numeric.Remainder
import ArmReach.Proofs.Solver.Nearest
import ArmReach.Proofs.Logging.Patterns
import ArmReach.Proofs.Numeric.Negation
import ArmReach.Proofs.Spatial.AlmostEqual
