import ArmReach.Kinematics.Arm
/-!
# Goals and how close is close enough

A solver compares the pose it reaches with the goal through `Pose.delta`: three position
differences and a rotation vector. `Constraints` choose which of the six components count and
may tighten or loosen the default tolerances; no constraints at all means all six components
at the defaults.

* `Constraints.mask` — the six enforced components;
* `Constraints.tolerances` — the position and angle tolerances, where only a positive value
  overrides a default;
* `Constraints.squaredNormMetric` — the score of a reached pose: the squared position residual
  plus the squared rotation residual scaled by ten.
-/

namespace ArmReach

/-- Which components of the pose difference are enforced, and optional tolerances. -/
structure Constraints where
  positionX : Bool := false
  positionY : Bool := false
  positionZ : Bool := false
  rotationX : Bool := false
  rotationY : Bool := false
  rotationZ : Bool := false
  positionTolerance : Float := 0
  orientationTolerance : Float := 0
  deriving Inhabited

namespace Constraints

/-- All six components. -/
def all : Constraints := ⟨true, true, true, true, true, true, 0, 0⟩

/-- The position components only. -/
def positionOnly : Constraints := ⟨true, true, true, false, false, false, 0, 0⟩

/-- The six enforced components; no constraints enforce all six. -/
def mask : Option Constraints → List Bool
  | none => [true, true, true, true, true, true]
  | some c => [c.positionX, c.positionY, c.positionZ, c.rotationX, c.rotationY, c.rotationZ]

/-- The position and angle tolerances: a positive tolerance of the constraints replaces the
corresponding default. -/
def tolerances (c : Option Constraints) (position orientation : Float) : Float × Float :=
  match c with
  | none => (position, orientation)
  | some c =>
    (if c.positionTolerance > 0 then c.positionTolerance else position,
     if c.orientationTolerance > 0 then c.orientationTolerance else orientation)

/-- The pose difference with the components that are not enforced set to zero. -/
def maskedDelta (mask : List Bool) (src dst : Pose) : List Float :=
  (Pose.delta src dst).zipWith (fun d keep => if keep then d else 0) mask

/-- The enforced components of a difference, in order. -/
def rowsOf (mask : List Bool) (delta : List Float) : List Float :=
  (delta.zip mask).filterMap fun (d, keep) => if keep then some d else none

/-- Position and rotation parts of a six-component difference. -/
def residuals (delta : List Float) : Vec3 × Vec3 :=
  (⟨delta.getD 0 0, delta.getD 1 0, delta.getD 2 0⟩, ⟨delta.getD 3 0, delta.getD 4 0, delta.getD 5 0⟩)

/-- How far a reached pose is from the goal: squared position residual plus the squared
rotation residual scaled by ten. -/
def squaredNormMetric (goal : Pose) (c : Option Constraints) (reached : Pose) : Float :=
  let (pos, rot) := residuals (maskedDelta (mask c) reached goal)
  pos.norm2 + (rot.scale 10).norm2

end Constraints

/-- The angle in degrees of the rotation from `a` to `b`. -/
def orientDist (a b : Orientation) : Float :=
  Chain.radToDeg (a.between b).toQuaternion.toAxisAngle.theta

end ArmReach
