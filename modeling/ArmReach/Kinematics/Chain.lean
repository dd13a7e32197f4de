import ArmReach.Kinematics.Failure
import ArmReach.Text.Quote
/-!
# Serial chains

A serial chain is a list of revolute joints, each a fixed translation followed by a rotation
about a unit axis, ending in an end effector offset. The chain holds one value per joint.

* `Chain.make` checks that there is a joint, that no axis is zero and that no bounded range
  is reversed, normalizes the axes, and starts every joint at `clamp 0`;
* `Chain.setPositions` accepts values of the right number within the ranges,
  `Chain.setUnchecked` only checks the number;
* `Chain.transform q` composes, joint by joint, the translation rotated by `q i` about the
  axis, and finally the end effector offset.
-/

namespace ArmReach

/-- A revolute joint: where it sits relative to the previous one, what it turns about, and
how far. -/
structure Joint where
  name : String
  translation : Vec3
  axis : Vec3
  limit : Limit
  deriving Inhabited

/-- A serial chain of joints with their current values. -/
structure Chain where
  name : String
  joints : List Joint
  endEffector : Vec3
  positions : List Float
  deriving Inhabited

namespace Chain

/-- Checks the joints one by one: a zero axis or a reversed bounded range is refused. -/
def checkJoints (name : String) : Nat → List Joint → Except Failure Unit
  | _, [] => pure ()
  | i, j :: rest => do
    if j.axis.norm == 0 then
      throw (.plain s!"joint {i} ({j.name}) of chain {Text.quote name} has a zero rotation axis")
    if !j.limit.continuous && j.limit.min > j.limit.max then
      throw (.plain (s!"joint {i} ({j.name}) of chain {Text.quote name} has min " ++
        fixedText 6 j.limit.min ++ " greater than max " ++ fixedText 6 j.limit.max))
    checkJoints name (i + 1) rest

/-- A chain from its joints: the axes normalized and every joint at `clamp 0`. -/
def make (name : String) (joints : List Joint) (endEffector : Vec3) : Except Failure Chain := do
  if joints.isEmpty then throw (.plain s!"chain {Text.quote name} has no joints")
  checkJoints name 0 joints
  let joints := joints.map fun j => { j with axis := j.axis.normalize }
  pure ⟨name, joints, endEffector, joints.map fun j => j.limit.clamp 0⟩

/-- The ranges of the joints, in order. -/
def limits (c : Chain) : List Limit := c.joints.map (·.limit)

/-- The first value outside its joint's range. -/
def outOfRange : Nat → List Limit → List Float → Except Failure Unit
  | i, l :: ls, v :: vs =>
    if l.contains v then outOfRange (i + 1) ls vs else throw (.outOfBounds i v l)
  | _, _, _ => pure ()

/-- Checks the number of values, and the ranges when `checkRanges` is set. -/
def checkValues (c : Chain) (q : List Float) (checkRanges : Bool) : Except Failure Unit := do
  if q.length ≠ c.joints.length then throw (.incorrectDof q.length c.joints.length)
  if checkRanges then outOfRange 0 c.limits q

/-- Moves the joints to `q`, which must have one value per joint, each within range. -/
def setPositions (c : Chain) (q : List Float) : Except Failure Chain := do
  checkValues c q true
  pure { c with positions := q }

/-- Moves the joints to `q`, which must have one value per joint. -/
def setUnchecked (c : Chain) (q : List Float) : Except Failure Chain := do
  checkValues c q false
  pure { c with positions := q }

/-- The pose of the end effector with the joints at `q` (one value per joint). -/
def transform (c : Chain) (q : List Float) : Except Failure Pose := do
  checkValues c q false
  let p := (c.joints.zip q).foldl
    (fun p (j, v) => p.compose (Pose.ofAxisAngle j.translation j.axis v)) Pose.zero
  pure (p.compose (Pose.ofPoint c.endEffector))

/-- The pose of the end effector at the current values. -/
def endPose (c : Chain) : Except Failure Pose := c.transform c.positions

end Chain

end ArmReach
