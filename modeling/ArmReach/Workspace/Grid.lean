import ArmReach.Spatial.Vector
import ArmReach.Decimal.Format
import ArmReach.Kinematics.Failure
/-!
# Sampling grids

The workspace is sampled on a regular grid over the half-open box `[min, max)`, with the same
step along the three axes. Along one axis the points are `lo + i * step` for
`i < ⌈(hi - lo) / step - 10⁻⁹⌉`: the small allowance keeps an exact multiple of the step from
adding a point at `hi` through rounding. Points come from their index, not by adding steps.

A box is refused, by the first rule it breaks:

1. the step must be positive and finite;
2. for x, then y, then z: the bounds must be finite, the minimum must not exceed the maximum,
   and `⌈span / step⌉` must not exceed `2³¹ - 1`;
3. the product of those three counts must not exceed `2³¹ - 1`.
-/

namespace ArmReach

namespace Workspace

/-- The most points along an axis, and in a whole grid. -/
def maxGridPoints : Float := 2147483647

/-- The allowance that keeps a bound that is a multiple of the step out of the grid. -/
def gridEpsilon : Float := 1e-9

/-- The grid values of one axis: `lo + i * step` below `hi`. -/
def gridPoints (lo hi step : Float) : List Float :=
  let n := Binary64.ceil ((hi - lo) / step - gridEpsilon)
  if n ≤ 0 then [] else
  (List.range n.toUInt64.toNat).map fun i => lo + i.toFloat * step

/-- Whether a double is neither NaN nor infinite. -/
def isFinite (x : Float) : Bool := !x.isNaN && !x.isInf

/-- The rules of one axis, given the product of the counts before it: the product with this
axis's count, or the message of the first broken rule. -/
def checkAxis (step : Float) (total : Float) (name : String) (lo hi : Float) :
    Except String Float :=
  if !isFinite lo || !isFinite hi then
    .error (name ++ " bounds must be finite, got [" ++ fixedText 6 lo ++ ", " ++ fixedText 6 hi ++ ")")
  else if lo > hi then
    .error (name ++ " min " ++ fixedText 6 lo ++ " is greater than max " ++ fixedText 6 hi)
  else
    let perAxis := Binary64.ceil ((hi - lo) / step)
    if perAxis > maxGridPoints then
      .error ("step " ++ generalText step ++ " gives " ++ generalText perAxis ++ " points along " ++
        name ++ ", more than 2147483647")
    else .ok (total * perAxis)

/-- Checks a sampling box, failing with the message of the first broken rule. -/
def checkBox (lo hi : Vec3) (step : Float) : Except Failure Unit :=
  if step.isNaN || step.isInf || step ≤ 0 then
    .error (.plain ("grid step must be positive and finite, got " ++ fixedText 6 step))
  else
    let counted := do
      let total ← checkAxis step 1 "x" lo.x hi.x
      let total ← checkAxis step total "y" lo.y hi.y
      checkAxis step total "z" lo.z hi.z
    match counted with
    | .error e => .error (.plain e)
    | .ok total =>
      if total > maxGridPoints then
        .error (.plain ("step " ++ generalText step ++ " gives " ++ generalText total ++
          " grid points, more than 2147483647"))
      else .ok ()

end Workspace

end ArmReach
