import ArmReach.Decimal.Basic
/-!
# The shortest decimal that reads back

Every finite double `v` stands for the interval of reals that round to it: half-way to each
neighbour, ends included when the significand is even (ties go to even on reading). The
shortest text of `v` is the decimal with the fewest significant digits in that interval, and of
two such the one nearer to `v`, an exact tie going to the even last digit.

For `p` digits the candidates are the two neighbours of `v` on the grid `10 ^ (E - p + 1)`,
where `E` is the decimal exponent of `v`: if any point of that grid lies in the interval, one
of these two does. Seventeen digits always suffice, so the search takes at most seventeen
steps. All comparisons are exact, on `4 * significand` at the scale `2 ^ (exponent - 2)`,
where both interval ends are integers.
-/

-- Powers of naturals and integers are core's `Nat.pow` and `Int.pow`, also where Mathlib's
-- monoid power is in scope.
attribute [local instance (high)] instPowNat

namespace ArmReach

namespace Decimal

/-- The `p`-digit decimal nearest to `m * 2 ^ e` inside its rounding interval, if there is one.
`E` is the decimal exponent of the value, `narrow` says that the lower neighbour is half as far
as the upper one. -/
def shortestAt (m : Nat) (e : Int) (narrow : Bool) (E : Int) (p : Nat) : Option Decimal :=
  let k := E - (p : Int) + 1
  let inclusive := m % 2 = 0
  let s := e - 2
  let (den, num) := scaled 1 k (4 * m) s
  let t := num / den
  let r := num % den
  let lo := if narrow then 4 * m - 1 else 4 * m - 2
  let hi := 4 * m + 2
  let loNum := (scaled 1 k lo s).2
  let hiNum := (scaled 1 k hi s).2
  let lowOk := loNum < t * den ∨ (inclusive ∧ loNum = t * den)
  let highOk := (t + 1) * den < hiNum ∨ (inclusive ∧ (t + 1) * den = hiNum)
  if r = 0 then some (trim t k)
  else if lowOk ∧ highOk then
    if 2 * r < den then some (trim t k)
    else if den < 2 * r then some (trim (t + 1) k)
    else if t % 2 = 0 then some (trim t k) else some (trim (t + 1) k)
  else if lowOk then some (trim t k)
  else if highOk then some (trim (t + 1) k)
  else none

/-- Tries `p, p + 1, …` digits, `fuel` times. -/
def shortestSearch (m : Nat) (e : Int) (narrow : Bool) (E : Int) : Nat → Nat → Decimal
  | p, 0 => trim (roundHalfEven (scaled 1 (E - (p : Int) + 1) m e).2
      (scaled 1 (E - (p : Int) + 1) m e).1) (E - (p : Int) + 1)
  | p, fuel + 1 =>
    match shortestAt m e narrow E p with
    | some d => d
    | none => shortestSearch m e narrow E (p + 1) fuel

/-- The shortest decimal that reads back as the double with magnitude `x`; zero for zero. -/
def shortest (x : Binary64.Parts) : Decimal :=
  if x.significand = 0 then ⟨0, 0⟩
  else shortestSearch x.significand x.exponent x.narrowBelow
    (floorLog10 x.significand x.exponent) 1 16

end Decimal

end ArmReach
