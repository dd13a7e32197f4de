import ArmReach.Spatial.Pose
/-!
# Joint limits

A joint either turns freely (`continuous`, with infinite bounds) or stays in `[min, max]`.
`Limit.clamp` moves a value of a bounded joint into its range; it follows the IEEE rules
of `fmax`/`fmin` as refined for NaN and signed zeros (`maxOf`, `minOf`): an infinite bound
wins over NaN, otherwise NaN wins, and `+0` counts as larger than `-0`.
-/

namespace ArmReach

/-- The larger of two doubles: `+∞` if either is, else NaN if either is, else the larger,
`+0` above `-0`. -/
def maxOf (x y : Float) : Float :=
  if (x.isInf && 0 < x) || (y.isInf && 0 < y) then 1.0 / 0.0
  else if x.isNaN || y.isNaN then 0.0 / 0.0
  else if x == 0 && x == y then (if Elementary.signBit x then y else x)
  else if y < x then x else y

/-- The smaller of two doubles: `-∞` if either is, else NaN if either is, else the smaller,
`-0` below `+0`. -/
def minOf (x y : Float) : Float :=
  if (x.isInf && x < 0) || (y.isInf && y < 0) then -(1.0 / 0.0)
  else if x.isNaN || y.isNaN then 0.0 / 0.0
  else if x == 0 && x == y then (if Elementary.signBit x then x else y)
  else if x < y then x else y

/-- The range of a joint. -/
structure Limit where
  min : Float
  max : Float
  continuous : Bool
  deriving Inhabited

namespace Limit

/-- A joint that turns freely. -/
def free : Limit := ⟨-(1.0 / 0.0), 1.0 / 0.0, true⟩

/-- Whether the joint may take the value. -/
def contains (l : Limit) (v : Float) : Bool := l.continuous || (v ≥ l.min && v ≤ l.max)

/-- The value moved into the range of a bounded joint; a free joint keeps it. -/
def clamp (l : Limit) (v : Float) : Float :=
  if l.continuous then v else maxOf l.min (minOf l.max v)

end Limit

end ArmReach
