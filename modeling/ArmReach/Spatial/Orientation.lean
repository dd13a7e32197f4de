import ArmReach.Spatial.Quaternion
import ArmReach.Elementary.Arc
/-!
# Orientations

An orientation is given as a raw quaternion, as an angle about an axis, or as roll, pitch and
yaw; each has a quaternion, and each has an axis-angle form read off its normalized
quaternion.

* `AxisAngle.toQuaternion` is `cos (θ/2) + sin (θ/2) · axis/|axis|`, the identity for a
  zero axis;
* `Quaternion.toAxisAngle` normalizes, moves to the half with `re ≥ 0` (so `θ ∈ [0, π]`), and
  gives the default axis `(0, 0, 1)` with angle zero when the rotation is too small to name
  an axis (vector part below `1e-12`);
* `EulerAngles` rotate about x (roll), then y (pitch), then z (yaw), and
  `Quaternion.toEuler` inverts that, with the pitch held at `±π/2` at gimbal lock.
-/

namespace ArmReach

open Elementary

/-- A rotation by `theta` radians about the axis `(rx, ry, rz)`. -/
structure AxisAngle where
  theta : Float
  rx : Float
  ry : Float
  rz : Float
  deriving Inhabited

/-- Roll, pitch and yaw in radians. -/
structure EulerAngles where
  roll : Float
  pitch : Float
  yaw : Float
  deriving Inhabited

namespace AxisAngle

/-- No rotation, about the z axis. -/
def default : AxisAngle := ⟨0, 0, 0, 1⟩

/-- The rotation vector: the axis scaled by the angle. -/
def toRotationVector (a : AxisAngle) : Vec3 := ⟨a.rx * a.theta, a.ry * a.theta, a.rz * a.theta⟩

/-- The quaternion of the rotation; the identity when the axis is zero. -/
def toQuaternion (a : AxisAngle) : Quaternion :=
  let norm := Float.sqrt (a.rx * a.rx + a.ry * a.ry + a.rz * a.rz)
  if norm == 0 then Quaternion.one
  else
    let s := sin (a.theta / 2) / norm
    ⟨cos (a.theta / 2), a.rx * s, a.ry * s, a.rz * s⟩

/-- The axis-angle form of a rotation vector: its length is the angle. -/
def ofRotationVector (v : Vec3) : AxisAngle :=
  let theta := v.norm
  if theta == 0 then default else ⟨theta, v.x / theta, v.y / theta, v.z / theta⟩

/-- The components as a list `[theta, rx, ry, rz]`. -/
def toList (a : AxisAngle) : List Float := [a.theta, a.rx, a.ry, a.rz]

end AxisAngle

namespace Quaternion

/-- The axis-angle form of the rotation of `q`, with `theta ∈ [0, π]`. -/
def toAxisAngle (q : Quaternion) : AxisAngle :=
  let q := q.normalize
  let q := if q.re < 0 then q.scale (-1) else q
  let sinHalf := Float.sqrt (q.i * q.i + q.j * q.j + q.k * q.k)
  if sinHalf < 1e-12 then AxisAngle.default
  else ⟨2 * atan2 sinHalf q.re, q.i / sinHalf, q.j / sinHalf, q.k / sinHalf⟩

/-- The rotation vector of `q`. -/
def toRotationVector (q : Quaternion) : Vec3 := q.toAxisAngle.toRotationVector

/-- Roll, pitch and yaw of the rotation of `q`. -/
def toEuler (q : Quaternion) : EulerAngles :=
  let q := q.normalize
  let sinrCosp := 2 * (q.re * q.i + q.j * q.k)
  let cosrCosp := 1 - 2 * (q.i * q.i + q.j * q.j)
  let roll := atan2 sinrCosp cosrCosp
  let sinp := 2 * (q.re * q.j - q.k * q.i)
  let pitch := if 1 ≤ sinp.abs then copySign (pi / 2) sinp else asin sinp
  let sinyCosp := 2 * (q.re * q.k + q.i * q.j)
  let cosyCosp := 1 - 2 * (q.j * q.j + q.k * q.k)
  ⟨roll, pitch, atan2 sinyCosp cosyCosp⟩

end Quaternion

namespace EulerAngles

/-- No rotation. -/
def zero : EulerAngles := ⟨0, 0, 0⟩

/-- The quaternion of roll about x, then pitch about y, then yaw about z. -/
def toQuaternion (e : EulerAngles) : Quaternion :=
  let cy := cos (e.yaw * 0.5)
  let sy := sin (e.yaw * 0.5)
  let cp := cos (e.pitch * 0.5)
  let sp := sin (e.pitch * 0.5)
  let cr := cos (e.roll * 0.5)
  let sr := sin (e.roll * 0.5)
  ⟨cr * cp * cy + sr * sp * sy,
   sr * cp * cy - cr * sp * sy,
   cr * sp * cy + sr * cp * sy,
   cr * cp * sy - sr * sp * cy⟩

/-- The components as a list `[roll, pitch, yaw]`. -/
def toList (e : EulerAngles) : List Float := [e.roll, e.pitch, e.yaw]

end EulerAngles

/-- An orientation in one of its three forms. -/
inductive Orientation where
  | quaternion (q : Quaternion)
  | axisAngle (a : AxisAngle)
  | euler (e : EulerAngles)
  deriving Inhabited

namespace Orientation

/-- The identity orientation. -/
def zero : Orientation := .quaternion Quaternion.one

/-- The quaternion of an orientation; a raw quaternion is returned as given. -/
def toQuaternion : Orientation → Quaternion
  | .quaternion q => q
  | .axisAngle a => a.toQuaternion
  | .euler e => e.toQuaternion

/-- The axis-angle form; an axis-angle orientation is returned as given. -/
def axisAngles : Orientation → AxisAngle
  | .axisAngle a => a
  | o => o.toQuaternion.toAxisAngle

/-- The rotation taking `a` to `b`: `b * conj a`, as a raw quaternion. -/
def between (a b : Orientation) : Orientation :=
  .quaternion (b.toQuaternion.mul a.toQuaternion.conj)

/-- Whether two orientations are the same rotation within `eps` per component of their
normalized quaternions, `q` and `-q` counting as the same. -/
def almostEqual (a b : Orientation) (eps : Float) : Bool :=
  let q1 := a.toQuaternion.normalize
  let q2 := b.toQuaternion.normalize
  q1.almostEqual q2 eps || q1.almostEqual (q2.scale (-1)) eps

end Orientation

end ArmReach
