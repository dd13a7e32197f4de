import ArmReach.Kinematics.Chain
/-!
# Arms

What a solver needs of an arm: its name and joint ranges, its current joint values, setting
them (checked or only counted), forward kinematics, and an independent copy. Every operation
returns the arm afterwards, so that an arm may keep its own bookkeeping (a serial chain only
changes its values). A failed setting leaves the values as they were.

`Chain` is an arm, and `Chain.sixAxis` is the six-axis arm that the library ships with.
-/

namespace ArmReach

/-- The operations of an arm. -/
class Arm (α : Type) where
  name : α → String
  limits : α → List Limit
  positions : α → List Float
  setPositions : α → List Float → α × Except Failure Unit
  setUnchecked : α → List Float → α × Except Failure Unit
  transform : α → List Float → α × Except Failure Pose
  clone : α → α

namespace Chain

/-- Keeps the chain when an update fails. -/
def orKeep (c : Chain) : Except Failure Chain → Chain × Except Failure Unit
  | .ok c' => (c', .ok ())
  | .error e => (c, .error e)

instance : Arm Chain where
  name c := c.name
  limits c := c.limits
  positions c := c.positions
  setPositions c q := c.orKeep (c.setPositions q)
  setUnchecked c q := c.orKeep (c.setUnchecked q)
  transform c q := (c, c.transform q)
  clone c := c

/-- Degrees to radians, `v * π / 180` evaluated left to right. -/
def degToRad (v : Float) : Float := v * Elementary.pi / 180

/-- Radians to degrees, `v * 180 / π` evaluated left to right. -/
def radToDeg (v : Float) : Float := v * 180 / Elementary.pi

/-- Whether two doubles differ by at most `epsilon`: `|a - b| ≤ epsilon`, so never when one
of them is NaN. -/
def float64AlmostEqual (a b epsilon : Float) : Bool := (a - b).abs ≤ epsilon

/-- The smaller of two integers. -/
def minInt (a b : Int) : Int := if a < b then a else b

/-- A joint with a symmetric range given in degrees. -/
def degreeJoint (name : String) (height : Float) (axis : Vec3) (deg : Float) : Joint :=
  ⟨name, ⟨0, 0, height⟩, axis, ⟨degToRad (-deg), degToRad deg, false⟩⟩

/-- The joints of the six-axis arm: waist, shoulder, elbow, forearm rotation, wrist and a
freely turning flange, stacked along z. -/
def sixAxisJoints : List Joint :=
  [degreeJoint "waist" 0.15 ⟨0, 0, 1⟩ 170,
   degreeJoint "shoulder" 0.1 ⟨1, 0, 0⟩ 120,
   degreeJoint "elbow" 0.4 ⟨1, 0, 0⟩ 150,
   degreeJoint "forearm_rot" 0.2 ⟨0, 0, 1⟩ 170,
   degreeJoint "wrist" 0.2 ⟨1, 0, 0⟩ 120,
   ⟨"flange", ⟨0, 0, 0.05⟩, ⟨0, 0, 1⟩, Limit.free⟩]

/-- The six-axis arm, its end effector 5 cm beyond the flange. -/
def sixAxis : Chain :=
  match make "sixaxis" sixAxisJoints ⟨0, 0, 0.05⟩ with
  | .ok c => c
  | .error _ => default

end Chain

end ArmReach
