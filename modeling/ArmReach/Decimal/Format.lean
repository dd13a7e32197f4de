import ArmReach.Decimal.Shortest
/-!
# Number text

The texts of a double that this library writes. All of them start from exact digits:

* the shortest digits that read back (`Decimal.shortest`), written either positionally or
  in exponent form `d.ddde±XX`, as a `ShortestStyle` decides;
* a fixed number of places, rounded half to even on the exact binary value (`fixedText`).

NaN and the infinities are written `NaN`, `+Inf` and `-Inf` in every style; a negative zero
keeps its sign.
-/

-- Powers of naturals and integers are core's `Nat.pow` and `Int.pow`, also where Mathlib's
-- monoid power is in scope.
attribute [local instance (high)] instPowNat

namespace ArmReach

namespace Decimal

/-- `n` written with the decimal point `places` digits from the right, with zeros in front
when `n` has too few digits. -/
def pointed (n : Nat) (places : Nat) : String :=
  let s := Nat.toDigits 10 n
  if places = 0 then String.ofList s
  else
    let padded := List.replicate (places + 1 - s.length) '0' ++ s
    let whole := padded.take (padded.length - places)
    let frac := padded.drop (padded.length - places)
    String.ofList whole ++ "." ++ String.ofList frac

/-- Positional text of a decimal, with exactly `places` digits after the point (the value
must need no more). -/
def positional (d : Decimal) (places : Nat) : String :=
  let shift : Int := (places : Int) + d.exponent
  pointed (d.digits * 10 ^ shift.toNat) places

/-- The digits needed after the point to write a decimal positionally. -/
def placesNeeded (d : Decimal) : Nat := (-d.exponent).toNat

/-- Exponent form `d.ddde±XX` of a nonzero decimal, with at least `minDigits` exponent digits. -/
def exponential (d : Decimal) (minDigits : Nat) : String :=
  let s := Nat.toDigits 10 d.digits
  let exp := d.pointPosition - 1
  let mant := match s with
    | [] => "0"
    | [c] => String.singleton c
    | c :: rest => String.singleton c ++ "." ++ String.ofList rest
  let expDigits := Nat.toDigits 10 exp.natAbs
  let expText := String.ofList (List.replicate (minDigits - expDigits.length) '0' ++ expDigits)
  mant ++ "e" ++ (if exp < 0 then "-" else "+") ++ expText

end Decimal

/-- When a shortest text uses exponent form. -/
inductive ExponentRule where
  /-- Exponent form when the magnitude is below `small` or at least `large`. -/
  | magnitude (small large : Float)
  /-- Exponent form when the decimal exponent of the shortest digits is below `low` or at
  least `high`. -/
  | decimalExponent (low high : Int)
  /-- Never: always positional. -/
  | never

/-- The decisions of a shortest-digits format. -/
structure ShortestStyle where
  exponentWhen : ExponentRule
  /-- The least number of exponent digits. -/
  minExponentDigits : Nat

namespace ShortestStyle

/-- Numbers in the JSON answers: exponent form below `1e-6` and from `1e21` on, as in
JavaScript, with exponents of one digit or more (`1e-7`, `1e+21`). -/
def json : ShortestStyle := ⟨.magnitude 1e-6 1e21, 1⟩

/-- The general format of a value in messages: exponent form below `1e-4` and from `1e6`
on, with at least two exponent digits (`1e-05`, `1e+15`). -/
def general : ShortestStyle := ⟨.decimalExponent (-4) 6, 2⟩

/-- Positional always (`1000000000000000000000`, `0.0000001`). -/
def plain : ShortestStyle := ⟨.never, 2⟩

end ShortestStyle

/-- Text of the non-finite doubles, or `none` for a finite one. -/
def nonFiniteText (x : Float) : Option String :=
  match Binary64.classify x with
  | .nan => some "NaN"
  | .inf neg => some (if neg then "-Inf" else "+Inf")
  | .finite _ => none

/-- The shortest text of a double in a style. -/
def shortestText (style : ShortestStyle) (x : Float) : String :=
  match nonFiniteText x with
  | some t => t
  | none =>
    let sign := if Binary64.signBit x then "-" else ""
    let d := Decimal.shortest (Binary64.parts x)
    let useExp : Bool := d.digits != 0 && match style.exponentWhen with
      | .magnitude small large => x.abs < small || large ≤ x.abs
      | .decimalExponent low high => d.pointPosition - 1 < low || high ≤ d.pointPosition - 1
      | .never => false
    if useExp then sign ++ d.exponential style.minExponentDigits
    else sign ++ d.positional d.placesNeeded

/-- A double with `places` digits after the point, rounded half to even on its exact value. -/
def fixedText (places : Nat) (x : Float) : String :=
  match nonFiniteText x with
  | some t => t
  | none =>
    let sign := if Binary64.signBit x then "-" else ""
    let p := Binary64.parts x
    let (den, num) := Decimal.scaled 1 (-(places : Int)) p.significand p.exponent
    sign ++ Decimal.pointed (roundHalfEven num den) places

/-- Text of a number in a JSON answer. -/
def jsonNumberText (x : Float) : String := shortestText .json x

/-- The general text of a number in messages. -/
def generalText (x : Float) : String := shortestText .general x

/-- The positional shortest text of a number. -/
def plainText (x : Float) : String := shortestText .plain x

end ArmReach
