import ArmReach.Linear.LU
/-!
# Condition estimate

The reciprocal condition number of a factored matrix in the infinity norm,
`1 / (‖a‖∞ * ‖a⁻¹‖∞)`, where `‖a⁻¹‖∞` is estimated without forming the inverse: Higham's
refinement of Hager's method (`inverseNormEstimate`) probes `a⁻¹` and `a⁻ᵀ` with a few
vectors of signs and unit vectors, each probe being two triangular solves with the factors,
and ends with an alternating test vector that guards against an underestimate.
-/

namespace ArmReach

namespace Matrix

/-- The largest row sum of magnitudes, NaN if a row sum is NaN. -/
def maxRowSum (m : Matrix) : Float :=
  (List.range m.rows).foldl (fun best i =>
    let s := (m.row i).foldl (fun s v => s + v.abs) 0
    if best.isNaN then best else if s.isNaN || s > best then s else best) 0

end Matrix

namespace LU

/-- `x := L⁻¹ x` for the unit lower factor. -/
def solveLower (f : LU) (x : Array Float) : Array Float := Id.run do
  let mut x := x
  for i in [0:f.size] do
    let mut s : Float := 0
    for j in [0:i] do
      s := s + x.getD j 0 * f.entry i j
    x := x.set! i (x.getD i 0 - s)
  return x

/-- `x := U⁻¹ x` for the upper factor. -/
def solveUpper (f : LU) (x : Array Float) : Array Float := Id.run do
  let n := f.size
  let mut x := x
  for r in [0:n] do
    let i := n - 1 - r
    let mut s : Float := 0
    for j in [i + 1:n] do
      s := s + x.getD j 0 * f.entry i j
    x := x.set! i ((x.getD i 0 - s) / f.entry i i)
  return x

/-- `x := U⁻ᵀ x`. -/
def solveUpperT (f : LU) (x : Array Float) : Array Float := Id.run do
  let n := f.size
  let mut x := x
  for i in [0:n] do
    x := x.set! i (x.getD i 0 / f.entry i i)
    let xi := x.getD i 0
    for j in [i + 1:n] do
      x := x.set! j (x.getD j 0 - f.entry i j * xi)
  return x

/-- `x := L⁻ᵀ x` for the unit lower factor. -/
def solveLowerT (f : LU) (x : Array Float) : Array Float := Id.run do
  let n := f.size
  let mut x := x
  for r in [0:n] do
    let i := n - 1 - r
    let xi := x.getD i 0
    for j in [0:i] do
      x := x.set! j (x.getD j 0 - xi * f.entry i j)
  return x

/-- `a⁻¹ x` without the row swaps, which do not change the estimate's norms. -/
def applyInverse (f : LU) (x : Array Float) : Array Float := f.solveUpper (f.solveLower x)

/-- `a⁻ᵀ x` without the row swaps. -/
def applyInverseT (f : LU) (x : Array Float) : Array Float := f.solveLowerT (f.solveUpperT x)

/-- Sum of magnitudes. -/
def absSum (x : Array Float) : Float := x.foldl (fun s v => s + v.abs) 0

/-- The first index of largest magnitude. -/
def largestAt (x : Array Float) : Nat := Id.run do
  let mut best := (x.getD 0 0).abs
  let mut k := 0
  for i in [0:x.size] do
    if (x.getD i 0).abs > best then
      best := (x.getD i 0).abs
      k := i
  return k

/-- `±1` with the sign bit of `v`. -/
def signOf (v : Float) : Float := Elementary.copySign 1 v

/-- The `j`-th unit vector of length `n`. -/
def unit (n j : Nat) : Array Float := (Array.replicate n (0 : Float)).set! j 1

/-- The probing loop: from the unit vector at `j`, alternate `B` and `Bᵀ` probes until the
estimate stops growing, the signs repeat, the largest entry stays where it was, or the
probes run out. -/
def probe (f : LU) (n : Nat) : Nat → Nat → Nat → Float → Array Float → Float
  | 0, _, _, est, _ => est
  | fuel + 1, iter, j, est, signs =>
    let x := f.applyInverseT (unit n j)
    let estold := est
    let est := absSum x
    let same := (List.range n).all fun i => signOf (x.getD i 0) == signs.getD i 0
    if same || est ≤ estold then est
    else
      let signs := x.map signOf
      let y := f.applyInverse signs
      let j' := largestAt y
      if y.getD j 0 != (y.getD j' 0).abs && iter < 5 then probe f n fuel (iter + 1) j' est signs
      else est

/-- An estimate of `‖a⁻¹‖∞` from the factors of `a`. -/
def inverseNormEstimate (f : LU) : Float :=
  let n := f.size
  let x := f.applyInverseT (Array.replicate n (1 / Float.ofNat n))
  if n = 1 then (x.getD 0 0).abs
  else
    let est := absSum x
    let signs := x.map signOf
    let y := f.applyInverse signs
    let est := probe f n 5 2 (largestAt y) est signs
    let alt := (Array.range n).map fun i =>
      (if i % 2 = 0 then 1 else -1) * (1 + Float.ofNat i / Float.ofNat (n - 1))
    let z := f.applyInverseT alt
    let temp := 2 * (absSum z / Float.ofNat (3 * n))
    if temp > est then temp else est

/-- The reciprocal condition number `1 / (‖a‖∞ ‖a⁻¹‖∞)` from the factors and `‖a‖∞`:
zero for a zero or infinite norm, NaN for a NaN norm. -/
def reciprocalCondition (f : LU) (anorm : Float) : Float :=
  if f.size = 0 then 1
  else if anorm == 0 then 0
  else if anorm.isNaN then anorm
  else if anorm.isInf then 0
  else
    let inv := f.inverseNormEstimate
    if inv != 0 then (1 / inv) / anorm else 0

end LU

end ArmReach
