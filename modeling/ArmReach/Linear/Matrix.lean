import ArmReach.Solver.Constraints
/-!
# Dense matrices

Row-major matrices of doubles, with the products the damped least-squares step needs. The
order of every sum is fixed, because the solver's iterates depend on it to the last bit:

* `dotLanes` accumulates a dot product in four lanes, blocks of four products spread over
  them and the rest added to the first, and adds the lanes pairwise at the end;
* `Matrix.gram` is `A * Aᵀ` entry by entry with `dotLanes`;
* `Matrix.mulTransposeVec` is `Aᵀ * x`, accumulated row by row;
* `euclideanNorm` is the 2-norm with a running scale, so that it does not overflow.
-/

namespace ArmReach

/-- A row-major matrix. -/
structure Matrix where
  rows : Nat
  cols : Nat
  data : Array Float
  deriving Inhabited

namespace Matrix

/-- The entry at row `i`, column `j`. -/
def get (m : Matrix) (i j : Nat) : Float := m.data.getD (i * m.cols + j) 0

/-- Row `i` as a list. -/
def row (m : Matrix) (i : Nat) : List Float := (List.range m.cols).map (m.get i)

/-- The matrix whose column `j` is `cols[j]`, each of length `rows`. -/
def ofColumns (rows : Nat) (cols : List (List Float)) : Matrix :=
  let n := cols.length
  ⟨rows, n, (Array.range (rows * n)).map fun k => (cols.getD (k % n) []).getD (k / n) 0⟩

end Matrix

/-- Sums products in four lanes: whole blocks of four go to lanes `a0 a1 b0 b1` in turn, the
remaining products to `a0` one by one, and the result is `(a0 + b0) + (a1 + b1)`. -/
def laneSum (ps : List Float) : Float :=
  let blocks := ps.length / 4
  let (a0, a1, b0, b1) := (List.range blocks).foldl (fun (a0, a1, b0, b1) b =>
    let g := fun i => ps.getD (4 * b + i) 0
    (a0 + g 0, a1 + g 1, b0 + g 2, b1 + g 3)) ((0 : Float), (0 : Float), (0 : Float), (0 : Float))
  let a0 := (ps.drop (4 * blocks)).foldl (· + ·) a0
  (a0 + b0) + (a1 + b1)

/-- Dot product summed in lanes (`laneSum`). -/
def dotLanes (x y : List Float) : Float := laneSum (x.zipWith (· * ·) y)

namespace Matrix

/-- `A * Aᵀ`: entry `(i, j)` is the dot product of rows `i` and `j`, the second row aligned
when it starts at an even offset. -/
def gram (a : Matrix) : Matrix :=
  let n := a.rows
  ⟨n, n, (Array.range (n * n)).map fun k =>
    let i := k / n
    let j := k % n
    0 + dotLanes (a.row i) (a.row j)⟩

/-- `Aᵀ * x`, accumulated one row of `A` at a time from zero. -/
def mulTransposeVec (a : Matrix) (x : List Float) : List Float :=
  (List.range a.rows).foldl
    (fun y i => (y.zip (a.row i)).map fun (yj, aij) => yj + x.getD i 0 * aij)
    (List.replicate a.cols 0)

end Matrix

/-- One step of the scaled sum of squares: `(scale, sum)` with the value so far being
`scale * √sum`. -/
def scaledSquares (acc : Float × Float) (v : Float) : Float × Float :=
  let (scale, sum) := acc
  if v == 0 then acc
  else
    let a := v.abs
    if scale < a then (a, 1 + sum * (scale / a) * (scale / a))
    else (scale, sum + (a / scale) * (a / scale))

/-- The Euclidean norm `scale * √sum` with a running scale; NaN if an entry is NaN,
infinite if the scale is. -/
def euclideanNorm (xs : List Float) : Float :=
  if xs.any (·.isNaN) then 0.0 / 0.0
  else
    let (scale, sum) := xs.foldl scaledSquares (0, 1)
    if scale.isInf then 1.0 / 0.0 else scale * Float.sqrt sum

/-- A fresh copy of joint values: the same values. -/
def copyInputs (inputs : List Float) : List Float := inputs

/-- The distance between two sets of joint values: the Euclidean norm of `target - source`,
or `+∞` when they do not have the same number of values. -/
def inputsL2Distance (source target : List Float) : Float :=
  if source.length ≠ target.length then 1.0 / 0.0
  else euclideanNorm (target.zipWith (· - ·) source)

end ArmReach
