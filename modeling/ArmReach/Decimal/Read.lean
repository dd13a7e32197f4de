import ArmReach.Elementary.Remainder
/-!
# From decimal to double

`Decimal.toFloat` rounds `digits * 10 ^ exponent` to the nearest double, ties to even, as
IEEE 754 reading requires. The value is a ratio `a / b` of naturals; the binary exponent is
found exactly, the significand is the ratio scaled into `[2 ^ 52, 2 ^ 53)` (or onto the
subnormal grid) and rounded half to even, and a value that rounds to `2 ^ 1024` or more is
infinite.
-/

-- Powers of naturals and integers are core's `Nat.pow` and `Int.pow`, also where Mathlib's
-- monoid power is in scope.
attribute [local instance (high)] instPowNat

namespace ArmReach

namespace Decimal

/-- `⌊log₂ (a / b)⌋` for positive `a` and `b`. -/
def floorLog2Ratio (a b : Nat) : Int :=
  let t : Int := (Nat.log2 a : Int) - (Nat.log2 b : Int)
  -- `2 ^ t ≤ a / b` holds or fails by one step
  if a * 2 ^ (-t).toNat < b * 2 ^ t.toNat then t - 1 else t

/-- The double nearest to `±digits * 10 ^ exponent`, ties to even; infinite when the
magnitude rounds to `2 ^ 1024` or beyond. -/
def toFloat (neg : Bool) (d : Decimal) : Float :=
  if d.digits = 0 then (if neg then -0.0 else 0.0)
  else
    let a := d.digits * 10 ^ d.exponent.toNat
    let b := 10 ^ (-d.exponent).toNat
    let s := max (floorLog2Ratio a b - 52) (-1074)
    let q := roundHalfEven (a * 2 ^ (-s).toNat) (b * 2 ^ s.toNat)
    let (q, s) := if q = 2 ^ (53 : Nat) then (2 ^ (52 : Nat), s + 1) else (q, s)
    if 1024 < s + 53 then (if neg then -(1.0 / 0.0) else 1.0 / 0.0)
    else Elementary.ofExact neg q s

end Decimal

end ArmReach
