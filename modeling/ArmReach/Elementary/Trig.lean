/-!
# Sine and cosine on doubles

The sine and cosine used throughout the library, fixed to the last bit so that every pose has
one value. Both reduce the argument to `z` in `[-π/4, π/4]` and an octant `j`, then evaluate
one of two minimax polynomials (Cephes `sin.c`, degree 13 and 14) on `z`:

* below `2 ^ 29` the octant is `⌊x * 4/π⌋` rounded up to even, and `z = x - j * π/4` is
  computed with `π/4` split into three parts whose products with `j` are exact, so the
  difference loses no bits;
* from `2 ^ 29` on, `x * 4/π` is formed exactly in fixed point from the first 1280 bits of
  `4/π` (`fourOverPiWords`), which covers the largest double.

The sign and the choice of polynomial follow from the octant: sine is odd, cosine even,
and both swap roles a quarter turn on.
-/

-- Powers of naturals and integers are core's `Nat.pow` and `Int.pow`, also where Mathlib's
-- monoid power is in scope.
attribute [local instance (high)] instPowNat

namespace ArmReach

namespace Elementary

/-- `π` rounded to a double. -/
def pi : Float := 3.14159265358979323846264338327950288419716939937510582097494459

/-- `4/π` rounded to a double. -/
def fourOverPi : Float := 1.27323954473516268615107010698011489627567716592365

/-- High part of `π/4`: its leading 30 bits, so that `j * pi4A` is exact for `j < 2 ^ 23`. -/
def pi4A : Float := 7.85398125648498535156e-1

/-- Middle part of `π/4`. -/
def pi4B : Float := 3.77489470793079817668e-8

/-- Low part of `π/4`. -/
def pi4C : Float := 2.69515142907905952645e-15

/-- Coefficients of the odd sine polynomial, highest degree first. -/
def sinCoeffs : Float × Float × Float × Float × Float × Float :=
  (1.58962301576546568060e-10, -2.50507477628578072866e-8, 2.75573136213857245213e-6,
   -1.98412698295895385996e-4, 8.33333333332211858878e-3, -1.66666666666666307295e-1)

/-- Coefficients of the even cosine polynomial, highest degree first. -/
def cosCoeffs : Float × Float × Float × Float × Float × Float :=
  (-1.13585365213876817300e-11, 2.08757008419747316778e-9, -2.75573141792967388112e-7,
   2.48015872888517045348e-5, -1.38888888888730564116e-3, 4.16666666666665929218e-2)

/-- The sine polynomial on a reduced argument `z`, with `zz = z * z`. -/
def sinPoly (z zz : Float) : Float :=
  let (s0, s1, s2, s3, s4, s5) := sinCoeffs
  z + z * zz * ((((((s0 * zz) + s1) * zz + s2) * zz + s3) * zz + s4) * zz + s5)

/-- The cosine polynomial on a reduced argument, given `zz = z * z`. -/
def cosPoly (zz : Float) : Float :=
  let (c0, c1, c2, c3, c4, c5) := cosCoeffs
  1.0 - 0.5 * zz + zz * zz * ((((((c0 * zz) + c1) * zz + c2) * zz + c3) * zz + c4) * zz + c5)

/-- The binary digits of `4/π`, 64 at a time: `4/π = Σ wᵢ * 2 ^ (-64 * i)`. Twenty words
(1280 bits) leave enough bits below the point for the largest double. -/
def fourOverPiWords : Array Nat := #[
  0x0000000000000001, 0x45f306dc9c882a53, 0xf84eafa3ea69bb81, 0xb6c52b3278872083,
  0xfca2c757bd778ac3, 0x6e48dc74849ba5c0, 0x0c925dd413a32439, 0xfc3bd63962534e7d,
  0xd1046bea5d768909, 0xd338e04d68befc82, 0x7323ac7306a673e9, 0x3908bf177bf25076,
  0x3ff12fffbc0b301f, 0xde5e2316b414da3e, 0xda6cfd9e4f96136e, 0x9e8c7ecd3cbfd45a,
  0xea4f758fd7cbe2f6, 0x7a0e73ef14a525d4, 0xd7f6bf623f1aba10, 0xac06608df8f6d757]

/-- A 64-bit word shifted left, high bits dropped; shifts of 64 or more give zero. -/
def shiftLeft64 (v : Nat) (s : Int) : Nat :=
  if s < 0 ∨ 64 ≤ s then 0 else (v <<< s.toNat) % 2 ^ (64 : Nat)

/-- A 64-bit word shifted right; shifts of 64 or more (or negative ones) give zero. -/
def shiftRight64 (v : Nat) (s : Int) : Nat :=
  if s < 0 ∨ 64 ≤ s then 0 else v >>> s.toNat

/-- The number of leading zero bits of a 64-bit word. -/
def leadingZeros64 (v : Nat) : Nat := if v = 0 then 64 else 63 - Nat.log2 v

/-- Octant and reduced argument of a large `x ≥ π/4`: `x * 4/π` in 128-bit fixed point,
the top three bits being the octant and the rest the fraction, which is turned back into a
double and scaled by `π/4`. An odd octant is moved up by one, the fraction down by one. -/
def reduceLarge (x : Float) : Nat × Float :=
  if x < pi / 4 then (0, x)
  else
    let w := x.toBits.toNat
    let exp : Int := ((w / 2 ^ (52 : Nat)) % 2048 : Nat) - 1023 - 52
    let ix := w % 2 ^ (52 : Nat) + 2 ^ (52 : Nat)
    let sh := (exp + 61).toNat
    let digit := sh / 64
    let b : Int := sh % 64
    let word (i : Nat) := fourOverPiWords.getD i 0
    let z0 := shiftLeft64 (word digit) b ||| shiftRight64 (word (digit + 1)) (64 - b)
    let z1 := shiftLeft64 (word (digit + 1)) b ||| shiftRight64 (word (digit + 2)) (64 - b)
    let z2 := shiftLeft64 (word (digit + 2)) b ||| shiftRight64 (word (digit + 3)) (64 - b)
    let z2hi := z2 * ix / 2 ^ (64 : Nat)
    let z1hi := z1 * ix / 2 ^ (64 : Nat)
    let z1lo := z1 * ix % 2 ^ (64 : Nat)
    let z0lo := z0 * ix % 2 ^ (64 : Nat)
    let lo := (z1lo + z2hi) % 2 ^ (64 : Nat)
    let carry := (z1lo + z2hi) / 2 ^ (64 : Nat)
    let hi := (z0lo + z1hi + carry) % 2 ^ (64 : Nat)
    let j := hi / 2 ^ (61 : Nat)
    let frac := shiftLeft64 hi 3 ||| shiftRight64 lo 61
    let lz := leadingZeros64 frac
    let e : Nat := 1023 - (lz + 1)
    let mant := (shiftLeft64 frac (lz + 1) ||| shiftRight64 lo (64 - ((lz : Int) + 1))) / 2 ^ (12 : Nat)
    let z := Float.ofBits (mant ||| e <<< 52).toUInt64
    if j % 2 = 1 then ((j + 1) % 8, (z - 1) * (pi / 4)) else (j, z * (pi / 4))

/-- Arguments from here on are reduced in fixed point. -/
def reduceThreshold : Float := 536870912.0

/-- Octant in `0..7` (an even one) and reduced argument `z` of a nonnegative finite `x`:
`x = (j + z / (π/4)) * π/4` modulo a full turn. -/
def reduce (x : Float) : Nat × Float :=
  if reduceThreshold ≤ x then reduceLarge x
  else
    let j0 := (x * fourOverPi).toUInt64.toNat
    let (j, y) := if j0 % 2 = 1 then (j0 + 1, Float.ofNat (j0 + 1)) else (j0, Float.ofNat j0)
    (j % 8, ((x - y * pi4A) - y * pi4B) - y * pi4C)

/-- Sine of a double. `sin ±0 = ±0`, and NaN for NaN and the infinities. -/
def sin (x : Float) : Float :=
  if x == 0 || x.isNaN then x
  else if x.isInf then 0.0 / 0.0
  else
    let neg := x < 0
    let (j, z) := reduce (if neg then -x else x)
    let (neg, j) := if 3 < j then (!neg, j - 4) else (neg, j)
    let zz := z * z
    let y := if j = 1 ∨ j = 2 then cosPoly zz else sinPoly z zz
    if neg then -y else y

/-- Cosine of a double; NaN for NaN and the infinities. -/
def cos (x : Float) : Float :=
  if x.isNaN || x.isInf then 0.0 / 0.0
  else
    let (j, z) := reduce x.abs
    let (neg, j) := if 3 < j then (true, j - 4) else (false, j)
    let neg := if 1 < j then !neg else neg
    let zz := z * z
    let y := if j = 1 ∨ j = 2 then sinPoly z zz else cosPoly zz
    if neg then -y else y

end Elementary

end ArmReach
