import ArmReach.Spatial.Orientation
/-!
# Poses

A pose is a point and a rotation, stored as a unit quaternion (normalized on construction,
the zero quaternion becoming the identity).

* `Pose.compose a b` applies `b` in the frame of `a`: point `a.p + rotate a.q b.p`, rotation
  `normalize (a.q * b.q)`;
* `Pose.inverse` undoes a pose, and `Pose.between a b = compose (inverse a) b`;
* `Pose.delta from to` is the six numbers `to.p - from.p` followed by the rotation vector of
  `to.q * conj from.q`.
-/

namespace ArmReach

/-- A position and a unit-quaternion rotation. -/
structure Pose where
  point : Vec3
  rotation : Quaternion
  deriving Inhabited

namespace Pose

/-- The identity pose at the origin. -/
def zero : Pose := ⟨Vec3.zero, Quaternion.one⟩

/-- The pose at a point with no rotation. -/
def ofPoint (p : Vec3) : Pose := ⟨p, Quaternion.one⟩

/-- The pose at `p` with orientation `o` (none meaning the identity); the quaternion is
normalized. -/
def make (p : Vec3) : Option Orientation → Pose
  | none => ofPoint p
  | some o => ⟨p, o.toQuaternion.normalize⟩

/-- The pose at `p` rotated by `theta` about `axis`. -/
def ofAxisAngle (p axis : Vec3) (theta : Float) : Pose :=
  make p (some (.axisAngle ⟨theta, axis.x, axis.y, axis.z⟩))

/-- The orientation of a pose, as its quaternion. -/
def orientation (p : Pose) : Orientation := .quaternion p.rotation

/-- `b` expressed in the frame of `a`. -/
def compose (a b : Pose) : Pose :=
  ⟨a.point.add (a.rotation.rotate b.point), (a.rotation.mul b.rotation).normalize⟩

/-- The pose that undoes `p`. -/
def inverse (p : Pose) : Pose :=
  let inv := p.rotation.conj
  ⟨(inv.rotate p.point).scale (-1), inv.normalize⟩

/-- The pose of `b` relative to `a`. -/
def between (a b : Pose) : Pose := compose a.inverse b

/-- Translation difference then rotation vector of the rotation from `src` to `dst`. -/
def delta (src dst : Pose) : List Float :=
  let dp := dst.point.sub src.point
  let dr := (dst.rotation.mul src.rotation.conj).toRotationVector
  [dp.x, dp.y, dp.z, dr.x, dr.y, dr.z]

/-- Same point within `eps` per axis, and same rotation within `eps`. -/
def almostEqual (a b : Pose) (eps : Float) : Bool :=
  a.point.almostEqual b.point eps && a.orientation.almostEqual b.orientation eps

/-- Same point within `eps` per axis, whatever the rotations. -/
def almostCoincident (a b : Pose) (eps : Float) : Bool :=
  a.point.almostEqual b.point eps

/-- The default tolerance of pose comparisons. -/
def defaultPrecision : Float := 1e-8

/-- Text `{X:… Y:… Z:… Theta:… RX:… RY:… RZ:…}` with four places, the rotation given in
axis-angle form. -/
def render (p : Pose) : String :=
  let aa := p.rotation.toAxisAngle
  let f := fixedText 4
  "\x7bX:" ++ f p.point.x ++ " Y:" ++ f p.point.y ++ " Z:" ++ f p.point.z ++ " Theta:" ++
    f aa.theta ++ " RX:" ++ f aa.rx ++ " RY:" ++ f aa.ry ++ " RZ:" ++ f aa.rz ++ "\x7d"

end Pose

end ArmReach
