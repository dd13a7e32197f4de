import ArmReach.Numeric.Binary64
/-!
# Decimal numbers

A `Decimal` is `digits * 10 ^ exponent` with natural digits. Conversions from a double go
through the exact magnitude `Binary64.Parts`, so every comparison here is between natural
numbers: `scaled` clears the denominators of `c * 10 ^ k` and `x * 2 ^ s` at once.

* `Decimal.trim` drops trailing zeros of the digits;
* `roundHalfEven num den` is `num / den` rounded to the nearest natural, ties to even;
* `Decimal.pointPosition` is where the decimal point falls in the digit string.
-/

-- Powers of naturals and integers are core's `Nat.pow` and `Int.pow`, also where Mathlib's
-- monoid power is in scope.
attribute [local instance (high)] instPowNat

namespace ArmReach

/-- A decimal number `digits * 10 ^ exponent`. -/
structure Decimal where
  digits : Nat
  exponent : Int
  deriving DecidableEq, Repr

namespace Decimal

/-- The two sides of `c * 10 ^ k` against `x * 2 ^ s`, both multiplied by
`10 ^ (-k) * 2 ^ (-s)` where those exponents are positive, so that they compare as naturals. -/
def scaled (c : Nat) (k : Int) (x : Nat) (s : Int) : Nat × Nat :=
  (c * 10 ^ k.toNat * 2 ^ (-s).toNat, x * 2 ^ s.toNat * 10 ^ (-k).toNat)

/-- Drops trailing zeros of the digits, raising the exponent to keep the value. -/
def trim (c : Nat) (k : Int) : Decimal :=
  if 0 < c ∧ c % 10 = 0 then trim (c / 10) (k + 1) else ⟨c, k⟩
termination_by c
decreasing_by omega

/-- The number of decimal digits of `n` (one for zero). -/
def digitCount (n : Nat) : Nat := (Nat.toDigits 10 n).length

/-- The digits as text, most significant first. -/
def digitText (d : Decimal) : String := String.ofList (Nat.toDigits 10 d.digits)

/-- The position of the decimal point counted from the left of `digitText`: the value is
`0.d₁d₂… * 10 ^ pointPosition`. -/
def pointPosition (d : Decimal) : Int := (digitCount d.digits : Int) + d.exponent

/-- The exponent `E` with `10 ^ E ≤ m * 2 ^ e < 10 ^ (E + 1)`, for `m > 0`. -/
def floorLog10 (m : Nat) (e : Int) : Int :=
  if 0 ≤ e then (digitCount (m * 2 ^ e.toNat) : Int) - 1
  else
    let d := 2 ^ (-e).toNat
    if d ≤ m then (digitCount (m / d) : Int) - 1
    else
      let j := digitCount (d / m) - 1
      if d ≤ m * 10 ^ j then -(j : Int) else -((j : Int) + 1)

end Decimal

/-- `num / den` rounded to the nearest natural; a quotient exactly halfway goes to the even
neighbour. -/
def roundHalfEven (num den : Nat) : Nat :=
  let q := num / den
  let r := num % den
  if 2 * r < den then q
  else if den < 2 * r then q + 1
  else if q % 2 = 0 then q else q + 1

end ArmReach
