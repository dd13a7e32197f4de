import ArmReach.Spatial.Pose
/-!
# Summaries of reached points

Per axis, the least and greatest coordinate, the mean, and the population standard deviation of
a set of reached positions. An empty set has the zero summary.

* The least and greatest start from the first value and take a later value only when it is
  strictly smaller (greater), so a first NaN stays and a later NaN is passed over.
* The mean is the sum from zero, in order, over the count.
* The deviation is the square root of the mean of the squared distances to the mean.
-/

namespace ArmReach

namespace Workspace

/-- The extent of a set of reached positions. -/
structure Summary where
  count : Nat
  least : Vec3
  greatest : Vec3
  mean : Vec3
  deviation : Vec3
  deriving Inhabited

namespace Summary

/-- The first value, replaced by every later value that `better` prefers. -/
def extreme (better : Float → Float → Bool) : List Float → Float
  | [] => 0
  | x :: xs => xs.foldl (fun m v => if better v m then v else m) x

/-- The mean of the values: their sum over their count. -/
def average (xs : List Float) : Float := xs.foldl (· + ·) 0 / xs.length.toFloat

/-- The population standard deviation of the values. -/
def spread (xs : List Float) : Float :=
  let m := average xs
  (xs.foldl (fun acc v => acc + (v - m) * (v - m)) 0 / xs.length.toFloat).sqrt

/-- A statistic applied to each axis of the points. -/
def perAxis (f : List Float → Float) (ps : List Vec3) : Vec3 :=
  ⟨f (ps.map (·.x)), f (ps.map (·.y)), f (ps.map (·.z))⟩

/-- The summary of the positions of some poses. -/
def ofPoses (poses : List Pose) : Summary :=
  let ps := poses.map (·.point)
  if ps.isEmpty then ⟨0, Vec3.zero, Vec3.zero, Vec3.zero, Vec3.zero⟩ else
  ⟨ps.length, perAxis (extreme (· < ·)) ps, perAxis (extreme (· > ·)) ps,
    perAxis average ps, perAxis spread ps⟩

end Summary

end Workspace

end ArmReach
