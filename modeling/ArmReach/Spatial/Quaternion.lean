import ArmReach.Spatial.Vector
/-!
# Quaternions

Rotations are stored as quaternions `re + i·I + j·J + k·K`. The product is the Hamilton
product, written out term by term in a fixed order; `abs` is the Euclidean norm computed
with the largest component factored out, so that it neither overflows nor underflows for
finite components; `normalize` scales to norm one and sends the zero quaternion to the
identity.
-/

namespace ArmReach

/-- A quaternion of doubles. -/
structure Quaternion where
  re : Float
  i : Float
  j : Float
  k : Float
  deriving Inhabited

namespace Quaternion

/-- The identity rotation. -/
def one : Quaternion := ⟨1, 0, 0, 0⟩

/-- The Hamilton product `a * b`. -/
def mul (a b : Quaternion) : Quaternion :=
  ⟨a.re * b.re - a.i * b.i - a.j * b.j - a.k * b.k,
   a.re * b.i + a.i * b.re + a.j * b.k - a.k * b.j,
   a.re * b.j - a.i * b.k + a.j * b.re + a.k * b.i,
   a.re * b.k + a.i * b.j - a.j * b.i + a.k * b.re⟩

/-- The conjugate: the vector part negated. -/
def conj (a : Quaternion) : Quaternion := ⟨a.re, -a.i, -a.j, -a.k⟩

/-- The quaternion scaled by `f`. -/
def scale (f : Float) (a : Quaternion) : Quaternion := ⟨f * a.re, f * a.i, f * a.j, f * a.k⟩

/-- The components as a list `[re, i, j, k]`. -/
def toList (a : Quaternion) : List Float := [a.re, a.i, a.j, a.k]

/-- Whether some component is infinite. -/
def hasInf (a : Quaternion) : Bool := a.re.isInf || a.i.isInf || a.j.isInf || a.k.isInf

/-- Whether some component is NaN. -/
def hasNaN (a : Quaternion) : Bool := a.re.isNaN || a.i.isNaN || a.j.isNaN || a.k.isNaN

/-- Swaps two slots so that the first holds the larger. -/
def largerFirst (a b : Float) : Float × Float := if a < b then (b, a) else (a, b)

/-- The norm of a quaternion: infinite if a component is, NaN if a component is and none is
infinite, otherwise `r * √(1 + (i/r)² + (j/r)² + (k/r)²)` for the largest magnitude `r`. -/
def abs (a : Quaternion) : Float :=
  if a.hasInf then 1.0 / 0.0
  else if a.hasNaN then 0.0 / 0.0
  else
    let mag (v : Float) : Float := if v < 0 then -v else v
    let (r, i) := largerFirst (mag a.re) (mag a.i)
    let (r, j) := largerFirst r (mag a.j)
    let (r, k) := largerFirst r (mag a.k)
    if r == 0 then 0
    else
      let i := i / r
      let j := j / r
      let k := k / r
      r * Float.sqrt (1 + i * i + j * j + k * k)

/-- The unit quaternion along `a`; the identity when `a` has norm zero. -/
def normalize (a : Quaternion) : Quaternion :=
  let n := a.abs
  if n == 0 then one else a.scale (1 / n)

/-- Whether the components differ by at most `tol` each. -/
def almostEqual (a b : Quaternion) (tol : Float) : Bool :=
  (a.re - b.re).abs ≤ tol && (a.i - b.i).abs ≤ tol && (a.j - b.j).abs ≤ tol &&
    (a.k - b.k).abs ≤ tol

/-- The vector `v` rotated by `q`, as the vector part of `q * v * conj q` (for a unit `q`). -/
def rotate (q : Quaternion) (v : Vec3) : Vec3 :=
  let r := (q.mul ⟨0, v.x, v.y, v.z⟩).mul q.conj
  ⟨r.i, r.j, r.k⟩

end Quaternion

end ArmReach
