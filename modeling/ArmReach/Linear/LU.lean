import ArmReach.Linear.Matrix
/-!
# LU factorization with partial pivoting

`LU.factor a` computes `P * a = L * U` column by column: the pivot of column `j` is the
first entry of largest magnitude on or below the diagonal; rows are swapped, the entries
below the pivot are scaled by the pivot's reciprocal, and the trailing block gets the rank-one
update `a[i][k] += (-l[i][j]) * u[j][k]`. `L` (unit lower) and `U` share one array.

`LU.solve` applies the row swaps to the right-hand side and solves with `L`, then with `U`,
each by substitution in the natural order. `LU.isSingular` says whether the determinant,
computed as `exp (Σ log |u[i][i]|)`, is zero.
-/

namespace ArmReach

/-- A factorization `P * a = L * U`: the combined factors, row-major, and the row swapped
with row `j` at step `j`. -/
structure LU where
  size : Nat
  factors : Array Float
  pivots : Array Nat
  deriving Inhabited

namespace LU

/-- The smallest positive normal double; pivots below it are divided by, not inverted. -/
def safeMin : Float := 2.2250738585072014e-308

/-- The factorization of a square matrix. -/
def factor (m : Matrix) : LU := Id.run do
  let n := m.rows
  let mut a := m.data
  let mut piv : Array Nat := Array.replicate n 0
  for j in [0:n] do
    let mut jp := j
    let mut best := (a.getD (j * n + j) 0).abs
    for i in [j + 1:n] do
      let v := (a.getD (i * n + j) 0).abs
      if v > best then
        best := v
        jp := i
    piv := piv.set! j jp
    if a.getD (jp * n + j) 0 != 0 then
      if jp != j then
        for k in [0:n] do
          let t := a.getD (j * n + k) 0
          a := a.set! (j * n + k) (a.getD (jp * n + k) 0)
          a := a.set! (jp * n + k) t
      if j + 1 < n then
        let aj := a.getD (j * n + j) 0
        if aj.abs ≥ safeMin then
          let r := 1 / aj
          for i in [j + 1:n] do
            a := a.set! (i * n + j) (a.getD (i * n + j) 0 * r)
        else
          for i in [j + 1:n] do
            a := a.set! (i * n + j) (a.getD (i * n + j) 0 / aj)
    if j + 1 < n then
      for i in [j + 1:n] do
        let t := -(a.getD (i * n + j) 0)
        for k in [j + 1:n] do
          a := a.set! (i * n + k) (a.getD (i * n + k) 0 + t * a.getD (j * n + k) 0)
  return ⟨n, a, piv⟩

/-- Entry `(i, j)` of the combined factors. -/
def entry (f : LU) (i j : Nat) : Float := f.factors.getD (i * f.size + j) 0

/-- Solves `a * x = b` from the factorization of `a`. -/
def solve (f : LU) (b : List Float) : List Float := Id.run do
  let n := f.size
  let mut x := b.toArray
  for i in [0:n] do
    let p := f.pivots.getD i i
    if p != i then
      let t := x.getD i 0
      x := x.set! i (x.getD p 0)
      x := x.set! p t
  for i in [0:n] do
    for k in [0:i] do
      let l := f.entry i k
      if l != 0 then
        x := x.set! i (x.getD i 0 + (-l) * x.getD k 0)
  for r in [0:n] do
    let i := n - 1 - r
    for k in [i + 1:n] do
      let u := f.entry i k
      if u != 0 then
        x := x.set! i (x.getD i 0 + (-u) * x.getD k 0)
    x := x.set! i (x.getD i 0 * (1 / f.entry i i))
  return x.toList

/-- Whether the determinant `± exp (Σ log |u[i][i]|)` is zero. -/
def isSingular (f : LU) : Bool :=
  let logSum := (List.range f.size).foldl (fun s i => s + Float.log (f.entry i i).abs) 0
  Float.exp logSum == 0

end LU

end ArmReach
