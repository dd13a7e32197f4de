/-!
# Binary64 values as exact integers

A finite double is a sign, an integer significand and a power of two. This module reads those
fields off the 64-bit word (`Float.toBits`), with no rounding operation involved, so that every
later decimal conversion is exact integer arithmetic on `Nat`.

* `Binary64.Class` tells NaN, the infinities and the finite values apart;
* `Binary64.Parts` is the exact magnitude `significand * 2 ^ exponent` of a finite value,
  with the one fact about its neighbours that shortest printing needs (`narrowBelow`);
* `Binary64.ceil` is the least integer not below a double, cut off its exact parts.
-/

-- Powers of naturals and integers are core's `Nat.pow` and `Int.pow`, also where Mathlib's
-- monoid power is in scope.
attribute [local instance (high)] instPowNat

namespace ArmReach

namespace Binary64

/-- The number of stored fraction bits of a double. -/
def fractionWidth : Nat := 52

/-- `2 ^ 52`, the implicit leading bit of a normal significand. -/
def hiddenBit : Nat := 2 ^ fractionWidth

/-- The stored fraction field of a word. -/
def fractionField (w : Nat) : Nat := w % hiddenBit

/-- The biased exponent field of a word. -/
def exponentField (w : Nat) : Nat := (w / hiddenBit) % 2048

/-- The sign bit of a word. -/
def signField (w : Nat) : Bool := decide (2 ^ (63 : Nat) ≤ w % 2 ^ (64 : Nat))

/-- What kind of value a double is. -/
inductive Class where
  | nan
  | inf (negative : Bool)
  | finite (negative : Bool)
  deriving DecidableEq, Repr

/-- The kind of a double, read off its word: an all-ones exponent is NaN or an infinity. -/
def classify (x : Float) : Class :=
  let w := x.toBits.toNat
  if exponentField w = 2047 then
    if fractionField w = 0 then .inf (signField w) else .nan
  else .finite (signField w)

/-- The exact magnitude of a finite double: the value is `significand * 2 ^ exponent`. -/
structure Parts where
  significand : Nat
  exponent : Int
  /-- The next smaller double is half as far away as the next larger one: the significand
  is the least of a binade that has a binade of the same spacing below it. -/
  narrowBelow : Bool
  deriving DecidableEq, Repr

/-- The exact magnitude of a double. The fields of NaN and the infinities are read as if
their exponent were ordinary; callers classify first. -/
def parts (x : Float) : Parts :=
  let w := x.toBits.toNat
  let e := exponentField w
  let f := fractionField w
  if e = 0 then ⟨f, -1074, false⟩
  else ⟨hiddenBit + f, (e : Int) - 1075, decide (f = 0 ∧ 1 < e)⟩

/-- Whether a double carries the sign bit; true also of `-0` and of a NaN with the bit set. -/
def signBit (x : Float) : Bool := signField x.toBits.toNat

/-- Whether a double is negative zero. -/
def isNegZero (x : Float) : Bool := x.toBits == 0x8000000000000000

/-- The least integer not below a double, as a double. NaN, the infinities and finite values
that are already integers (the zeros too) are kept; a value in `(-1, 0)` goes to `-0`. The
integer part of the magnitude is its significand with the fraction bits cut off; a positive
value with a fraction left goes one up. -/
def ceil (x : Float) : Float :=
  match classify x with
  | .finite negative =>
    let p := parts x
    if 0 ≤ p.exponent then x
    else
      let k := (-p.exponent).toNat
      let whole := p.significand / 2 ^ k
      if negative then -Float.ofNat whole
      else Float.ofNat (if p.significand % 2 ^ k = 0 then whole else whole + 1)
  | _ => x

end Binary64

end ArmReach
