import ArmReach.Elementary.Trig
/-!
# Inverse tangent and inverse sine on doubles

The arc functions of the library, fixed to the last bit. `atan` reduces its argument to
`[0, 0.66]` with the identities `atan x = π/2 - atan (1/x)` (above `tan (3π/8)`) and
`atan x = π/4 + atan ((x-1)/(x+1))` (in between), and evaluates a rational minimax
approximation (Cephes `atan.c`) there; the `π/2` and `π/4` it adds carry the bits of `π/2`
beyond the double (`piOver2Tail`). `atan2` picks the quadrant, `asin` goes through `atan`
of `x / √(1 - x²)`.
-/

namespace ArmReach

namespace Elementary

/-- `π/2 - pi/2`: the part of `π/2` below the last bit of its double. -/
def piOver2Tail : Float := 6.123233995736765886130e-17

/-- `tan (3π/8)`, where the reduction switches to the reciprocal. -/
def tan3PiOver8 : Float := 2.41421356237309504880

/-- The rational approximation of `atan` on `[0, 0.66]`. -/
def atanKernel (x : Float) : Float :=
  let p0 : Float := -8.750608600031904122785e-01
  let p1 : Float := -1.615753718733365076637e+01
  let p2 : Float := -7.500855792314704667340e+01
  let p3 : Float := -1.228866684490136173410e+02
  let p4 : Float := -6.485021904942025371773e+01
  let q0 : Float := 2.485846490142306297962e+01
  let q1 : Float := 1.650270098316988542046e+02
  let q2 : Float := 4.328810604912902668951e+02
  let q3 : Float := 4.853903996359136964868e+02
  let q4 : Float := 1.945506571482613964425e+02
  let z := x * x
  let z := z * ((((p0 * z + p1) * z + p2) * z + p3) * z + p4) /
    (((((z + q0) * z + q1) * z + q2) * z + q3) * z + q4)
  x * z + x

/-- `atan` of a nonnegative argument, reduced to the kernel's range. -/
def atanNonneg (x : Float) : Float :=
  if x ≤ 0.66 then atanKernel x
  else if tan3PiOver8 < x then pi / 2 - atanKernel (1 / x) + piOver2Tail
  else pi / 4 + atanKernel ((x - 1) / (x + 1)) + 0.5 * piOver2Tail

/-- Inverse tangent; `atan ±0 = ±0`. -/
def atan (x : Float) : Float :=
  if x == 0 then x
  else if 0 < x then atanNonneg x
  else -atanNonneg (-x)

/-- `|x|` with the sign bit of `s`. -/
def copySign (x s : Float) : Float :=
  Float.ofBits ((x.toBits &&& 0x7fffffffffffffff) ||| (s.toBits &&& 0x8000000000000000))

/-- Whether the sign bit of a double is set. -/
def signBit (x : Float) : Bool := x.toBits &&& 0x8000000000000000 != 0

/-- The angle of the point `(x, y)` in `[-π, π]`, with the signed zeros and infinities
placed as IEEE 754 recommends. -/
def atan2 (y x : Float) : Float :=
  if y.isNaN || x.isNaN then 0.0 / 0.0
  else if y == 0 then
    if 0 ≤ x && !signBit x then copySign 0 y else copySign pi y
  else if x == 0 then copySign (pi / 2) y
  else if x.isInf then
    if 0 < x then
      if y.isInf then copySign (pi / 4) y else copySign 0 y
    else
      if y.isInf then copySign (3 * pi / 4) y else copySign pi y
  else if y.isInf then copySign (pi / 2) y
  else
    let q := atan (y / x)
    if x < 0 then (if q ≤ 0 then q + pi else q - pi) else q

/-- Inverse sine on `[-1, 1]`, NaN outside; `asin ±0 = ±0`. -/
def asin (x : Float) : Float :=
  if x == 0 then x
  else
    let neg := x < 0
    let a := if neg then -x else x
    if 1 < a then 0.0 / 0.0
    else
      let t := Float.sqrt (1 - a * a)
      let r := if 0.7 < a then pi / 2 - atanNonneg (t / a) else atanNonneg (a / t)
      if neg then -r else r

end Elementary

end ArmReach
