import ArmReach.Random.Source
import ArmReach.Random.Fnv
import ArmReach.Kinematics.Arm
import ArmReach.Elementary.Remainder
/-!
# Random joint values and nearest turns

* `randomPositions` draws one value per joint: uniformly in `[min, max]` for a bounded joint
  (`min + (max - min) * u`, clamped), and in `[-π, π)` for a free one; without a source of
  its own the caller gets the draws of a fresh source seeded with `1`
  (`randomJointPositions`);
* `nearestAngles` moves each free joint of a candidate by whole turns to within half a turn of
  a reference, leaving bounded joints alone.

Both work in double or single precision (`Precision`); single-precision values are carried as
the doubles they widen to.
-/

-- Powers of naturals are core's `Nat.pow`, also where Mathlib's monoid power is in scope.
attribute [local instance (high)] instPowNat

namespace ArmReach

/-- The precision of joint values. -/
inductive Precision where
  | double
  | single
  deriving DecidableEq, Repr

namespace Precision

/-- A double rounded to single precision and widened back: to nearest with ties to even, at
24 significant bits and at most the exponent `-149` of the least subnormal single. Values from
`2 ^ 128` on round to the infinity of their sign; NaN, the infinities and the zeros stay as
they are. -/
def roundSingle (x : Float) : Float :=
  if x.isNaN || x.isInf || x == 0 then x
  else
    let p := Binary64.parts x
    let neg := Binary64.signBit x
    -- the last place of a single of the size of `x`
    let q : Int := max (p.exponent + p.significand.log2 - 23) (-149)
    let n := if q ≤ p.exponent then p.significand <<< (p.exponent - q).toNat
      else roundHalfEven p.significand (2 ^ (q - p.exponent).toNat)
    if n = 0 then (if neg then -0.0 else 0.0)
    else if 128 ≤ q + n.log2 then (if neg then -(1.0 / 0.0) else 1.0 / 0.0)
    else Elementary.ofExact neg n q

/-- A double rounded to the precision (to nearest, ties to even). -/
def round : Precision → Float → Float
  | .double, x => x
  | .single, x => roundSingle x

end Precision

/-- One draw per joint, in order, in precision `p`. -/
def randomPositions (p : Precision) (limits : List Limit) (src : Random.Source) :
    List Float × Random.Source :=
  let step := fun (acc : List Float × Random.Source) (l : Limit) =>
    let (f, src) := acc.2.float
    let v := if l.continuous then -Elementary.pi + 2 * Elementary.pi * f
      else l.clamp (l.min + (l.max - l.min) * f)
    (acc.1 ++ [p.round v], src)
  limits.foldl step ([], src)

/-- The draws of one configuration from the caller's source, or, without one, from a fresh
source seeded with `1` that is dropped afterwards: the values, and the caller's source after
the draws. -/
def randomJointPositions (p : Precision) (limits : List Limit) :
    Option Random.Source → List Float × Option Random.Source
  | some src => let (vs, src) := randomPositions p limits src; (vs, some src)
  | none => ((randomPositions p limits (Random.Source.seeded 1)).1, none)

/-- `candidate` moved by whole turns to the value congruent to it nearest to `reference`:
`reference + remainder (candidate - reference) 2π`. -/
def nearestCongruent (p : Precision) (reference candidate : Float) : Float :=
  p.round (reference + Elementary.remainder (candidate - reference) (2 * Elementary.pi))

/-- The candidate with each free joint moved to its nearest congruent value; the three lists
must have one entry per joint. -/
def nearestAngles (p : Precision) (reference candidate : List Float) (limits : List Limit) :
    Except Failure (List Float) :=
  if reference.length ≠ limits.length ∨ candidate.length ≠ limits.length then
    .error (.wrap s!"reference has {reference.length} values"
      (.incorrectDof candidate.length limits.length))
  else
    .ok ((candidate.zip (reference.zip limits)).map fun (c, r, l) =>
      if l.continuous then nearestCongruent p r c else c)

end ArmReach
