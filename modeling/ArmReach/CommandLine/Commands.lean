import ArmReach.CommandLine.Session
import ArmReach.CommandLine.Flag
import ArmReach.Solver.Restart
import ArmReach.Solver.Jacobian
import ArmReach.Workspace.Sampler
import ArmReach.Workspace.Summary
import ArmReach.Kinematics.JointTable
import ArmReach.Kinematics.ModelFile
import ArmReach.Logging.Pattern
/-!
# The commands

Three commands work on an arm: the bundled six-axis arm, or the one a `--model` file describes.

* `solve` solves for a goal `--point x,y,z` with the orientation `--orientation r,p,y` (degrees)
  or, without one, the arm's current end orientation. It prints the joints in degrees and the
  pose reached, or, when the solver does not converge, the goal and the differences left.
* `reachable` samples the box `[--min, --max)` with spacing `--step` and prints either every
  reached point as a JSON object or a summary: count, least, greatest, mean and standard
  deviation per axis. `--plot FILE` also saves the reached points as a plot.
* `joints` prints the arm's joint table.

Before solving, a command checks the `--log-level` patterns, loads the arm, moves it to
`--start` (degrees) if given, and builds a restart solver around a Jacobian solver from
`--restarts`, `--iterations` and `--seed`; `--position-only` drops the orientation from the
goal. The first failure ends the command with its message.
-/

namespace ArmReach

namespace CommandLine

/-- The flags an action reads: its command's, then the global ones. -/
structure Context where
  commandFlags : List Flag
  commandState : FlagState
  globalFlags : List Flag
  globalState : FlagState

/-- What a command does: requests of its surroundings, ending in success or a failure. -/
abbrev Action (α : Type) := ExceptT Failure Session α

namespace Context

/-- The value of a flag by name, looked up among the command's flags first. -/
def lookup (c : Context) (name : String) : Option FlagValue :=
  match flagIndex c.commandFlags name with
  | some i => c.commandState.values[i]?
  | none =>
    match flagIndex c.globalFlags name with
    | some i => c.globalState.values[i]?
    | none => none

/-- A truth flag's value, false if there is none. -/
def bool (c : Context) (name : String) : Bool :=
  match c.lookup name with
  | some (.bool b) => b
  | _ => false

/-- A whole-number flag's value, zero if there is none. -/
def int (c : Context) (name : String) : Int :=
  match c.lookup name with
  | some (.int n) => n
  | _ => 0

/-- A real flag's value, zero if there is none. -/
def real (c : Context) (name : String) : Float :=
  match c.lookup name with
  | some (.real x) => x
  | _ => 0

/-- A list-of-reals flag's value, empty if there is none. -/
def reals (c : Context) (name : String) : List Float :=
  match c.lookup name with
  | some (.reals xs) => xs
  | _ => []

/-- A text flag's value, empty if there is none. -/
def text (c : Context) (name : String) : String :=
  match c.lookup name with
  | some (.text s) => s
  | _ => ""

/-- A list-of-texts flag's value, empty if there is none. -/
def texts (c : Context) (name : String) : List String :=
  match c.lookup name with
  | some (.texts ss) => ss
  | _ => []

end Context

/-- Writes text to standard output. -/
def say (text : String) : Action Unit := ExceptT.lift (Session.print text)

/-- Fails with the failure of a result, or gives its value. -/
def ofExcept {α : Type} (r : Except Failure α) : Action α :=
  match r with
  | .ok a => pure a
  | .error f => throw f

/-- The arm to work on: the six-axis arm, or the one the model file describes. -/
def loadArm (c : Context) : Action Chain := do
  let path := c.text "model"
  if path.isEmpty then return Chain.sixAxis
  match ← ExceptT.lift (Session.readFile path) with
  | .error e => throw (.wrap "failed to read json file" (.plain e))
  | .ok text => ofExcept (Chain.ofModelText text "")

/-- The level a logger named `name` gets from the patterns, or `base` when none matches. -/
def patternLevel (patterns : List Logging.PatternLevel) (name : String) (base : Logging.Level) :
    Logging.Level :=
  patterns.foldl (fun l p =>
    if Logging.Pattern.matchesName p.pattern name then
      match Logging.Level.parse p.level with
      | .ok l' => l'
      | .error _ => l
    else l) base

/-- The level patterns given with `--log-level`, the first malformed one refused. -/
def levelPatterns (c : Context) : Action (List Logging.PatternLevel) :=
  ofExcept ((c.texts "log-level").mapM fun s => (Logging.PatternLevel.parse s).mapError .plain)

/-- What solving needs: the arm, the solver and the constraints. -/
structure Client where
  arm : Chain
  solver : RestartSolver JacobianSolver
  constraints : Constraints

/-- Prepares to solve: log levels, arm, start joints, solver and constraints, in this order. -/
def client (c : Context) : Action Client := do
  let patterns ← levelPatterns c
  let arm ← loadArm c
  let arm ← match c.reals "start" with
    | [] => pure arm
    | start =>
      match arm.setPositions (start.map Chain.degToRad) with
      | .ok a => pure a
      | .error e => throw (.wrap "invalid start joint positions" e)
  let base : Logging.Level := if c.bool "debug" then .debug else .info
  let level := patternLevel patterns "ikreach.ik" (patternLevel patterns "ikreach" base)
  let journal : Logging.Journal := { name := "ikreach.ik", level }
  let solver ← ofExcept (RestartSolver.create (some (JacobianSolver.create (c.int "iterations")))
    (c.int "restarts") (c.int "seed") (some journal))
  let constraints := if c.bool "position-only" then Constraints.positionOnly else Constraints.all
  pure ⟨arm, solver, constraints⟩

/-- A point given as `x,y,z`. -/
def vectorFlag (c : Context) (name : String) : Except Failure Vec3 :=
  match c.reals name with
  | [x, y, z] => .ok ⟨x, y, z⟩
  | vs => .error (.plain ("--" ++ name ++ " needs exactly 3 comma separated values, got " ++
      toString vs.length))

/-- The goal orientation: `--orientation` as roll, pitch and yaw in degrees, or the arm's
current end orientation when it is not given. -/
def goalOrientation (c : Context) (arm : Chain) : Except Failure Orientation :=
  match c.reals "orientation" with
  | [] => arm.endPose.map Pose.orientation
  | [r, p, y] => .ok (.euler ⟨Chain.degToRad r, Chain.degToRad p, Chain.degToRad y⟩)
  | vs => .error (.plain ("--orientation needs roll,pitch,yaw, got " ++ toString vs.length ++
      " values"))

/-- Three coordinates with three places each: `(x, y, z)`. -/
def vectorText (v : Vec3) : String :=
  "(" ++ fixedText 3 v.x ++ ", " ++ fixedText 3 v.y ++ ", " ++ fixedText 3 v.z ++ ")"

/-- A reached point as a JSON object. -/
def pointJson (p : Vec3) : String :=
  "\x7b\"x\":" ++ jsonNumberText p.x ++ ",\"y\":" ++ jsonNumberText p.y ++ ",\"z\":" ++
    jsonNumberText p.z ++ "\x7d"

/-- Solves for one goal and reports the result. -/
def solveCommand (c : Context) : Action Unit := do
  let cl ← client c
  let point ← ofExcept (vectorFlag c "point")
  let orientation ← ofExcept (goalOrientation c cl.arm)
  let goal := Pose.make point (some orientation)
  let s := cl.solver.solve false cl.arm goal (some cl.constraints)
  match s.outcome with
  | .error e =>
    match e.notConverged? with
    | some nc =>
      say ("could not reach " ++ goal.render ++ ": position diff " ++ nc.positionDiff.render ++
        ", rotation diff " ++ nc.rotationDiff.render ++ "\n")
    | none => pure ()
    throw e
  | .ok () =>
    let reached ← ofExcept s.arm.endPose
    say ("joints (degrees): " ++
      " ".intercalate (s.arm.positions.map fun q => fixedText 2 (Chain.radToDeg q)) ++ "\n")
    say ("end pose: " ++ reached.render ++ "\n")

/-- Saves a plot of the reached poses of an arm to a file. -/
def savePlot (poses : List Pose) (arm path : String) : Action Unit := do
  let points := poses.map (·.point)
  if let some f := Workspace.pointsFailure points then throw f
  if let some e ← ExceptT.lift (Session.createFile path) then
    throw (Workspace.saveFailure path (.plain e))
  let format ← ofExcept (Workspace.formatFor path)
  if let some e ← ExceptT.lift (Session.drawPlot path ⟨Workspace.plotTitle arm, format, points⟩) then
    throw (Workspace.saveFailure path (.plain e))

/-- Samples a box and reports the reached points; `factor` is the number of work groups used
when `--parallel` is zero or less. -/
def reachableCommand (factor : Nat) (c : Context) : Action Unit := do
  let cl ← client c
  let lo ← ofExcept (vectorFlag c "min")
  let hi ← ofExcept (vectorFlag c "max")
  let orientation ← ofExcept (goalOrientation c cl.arm)
  let reference := Pose.make lo (some orientation)
  let sampler : Workspace.Sampler (RestartSolver JacobianSolver) := ⟨cl.solver, c.int "parallel", factor⟩
  let (_, _, _, result) := sampler.sample false cl.arm reference (some cl.constraints) lo hi (c.real "step")
  let poses ← ofExcept result
  let path := c.text "plot"
  if !path.isEmpty then savePlot poses cl.arm.name path
  if c.bool "json" then
    for p in poses do say (pointJson p.point ++ "\n")
  else
    let s := Workspace.Summary.ofPoses poses
    say ("reached " ++ toString s.count ++ " points\n")
    if s.count > 0 then
      say ("min:    " ++ vectorText s.least ++ "\n")
      say ("max:    " ++ vectorText s.greatest ++ "\n")
      say ("mean:   " ++ vectorText s.mean ++ "\n")
      say ("stddev: " ++ vectorText s.deviation ++ "\n")

/-- Prints the arm's joint table. -/
def jointsCommand (c : Context) : Action Unit := do
  let arm ← loadArm c
  say (arm.describe ++ "\n")

end CommandLine

end ArmReach
