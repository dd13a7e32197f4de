import ArmReach.Elementary.Arc
import ArmReach.Decimal.Basic
/-!
# The IEEE remainder

`remainder x y` is `x - n * y` for the integer `n` nearest to `x / y`, ties to even. The
result is always a double (its magnitude is at most `|y| / 2` and it lies on the grid of the
finer of `x` and `y`), so it is computed exactly here on the integer parts of `x` and `y`
and converted back without rounding. A zero result carries the sign of `x`.
-/

-- Powers of naturals and integers are core's `Nat.pow` and `Int.pow`, also where Mathlib's
-- monoid power is in scope.
attribute [local instance (high)] instPowNat

namespace ArmReach

namespace Elementary

/-- The double `±m * 2 ^ e`, exact when that value is a double: the magnitude is rounded to
the format by the model of doubles and packed into its word. -/
def ofExact (neg : Bool) (m : Nat) (e : Int) : Float :=
  let v := Float.ofModel (.pack (Float.Model.UnpackedFloat.round .binary64 .positive m e))
  if neg then -v else v

/-- The IEEE remainder of `x` by `y`: NaN when `x` is NaN or infinite or `y` is NaN or zero,
`x` itself when `y` is infinite. -/
def remainder (x y : Float) : Float :=
  if x.isNaN || y.isNaN || x.isInf || y == 0 then 0.0 / 0.0
  else if y.isInf then x
  else
    let px := Binary64.parts x
    let py := Binary64.parts y
    let e := min px.exponent py.exponent
    let bx := px.significand * 2 ^ (px.exponent - e).toNat
    let by_ := py.significand * 2 ^ (py.exponent - e).toNat
    let n := roundHalfEven bx by_
    let r : Int := (bx : Int) - (n : Int) * (by_ : Int)
    let neg := signBit x
    if r = 0 then copySign 0 x
    else ofExact (if r < 0 then !neg else neg) r.natAbs e

end Elementary

end ArmReach
