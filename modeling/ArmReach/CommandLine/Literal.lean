import ArmReach.Decimal.Read
/-!
# Numbers and truth values in flag values

Flag values are text; this module reads the three kinds of literal a flag takes.

* A whole number is an optional sign and digits in a base set by a prefix: `0b` binary, `0o`
  octal, `0x` hexadecimal (each needing a digit after it), a lone leading `0` octal, decimal
  otherwise. Digits above 9 are letters in either case. Underscores may separate digits, or a
  base prefix from a digit. The value must lie in `[-2 ^ 63, 2 ^ 63)`; digits are read from the
  left and a prefix beyond `2 ^ 64 - 1` is out of range even if a bad character follows.
* A real number is `inf` or `infinity` with an optional sign, `nan` without one (any letter
  case), a decimal `digits[.digits][e[±]digits]`, or a hexadecimal `0x` mantissa with a binary
  exponent `p[±]digits`, which it must have; underscores as for whole numbers. The value is the
  double nearest the literal, ties to even; one that rounds beyond the largest double is out of
  range. Exponent digits stop counting once the exponent reaches 10000.
* A truth value is one of `1 t T TRUE true True` or `0 f F FALSE false False`.
-/

-- Powers of naturals and integers are core's `Nat.pow` and `Int.pow`, also where Mathlib's
-- monoid power is in scope.
attribute [local instance (high)] instPowNat

namespace ArmReach

namespace CommandLine

/-- Why a flag value is refused as a number. -/
inductive Refusal where
  /-- The text is not a literal of the kind. -/
  | malformed
  /-- The literal's value does not fit. -/
  | outOfRange
  deriving DecidableEq, Repr

namespace Literal

/-- The ASCII lower case of a character. -/
def lower (c : Char) : Char := if 'A' ≤ c && c ≤ 'Z' then Char.ofNat (c.toNat + 32) else c

/-- Whether a character is a decimal digit. -/
def isDigit (c : Char) : Bool := '0' ≤ c && c ≤ '9'

/-- The value of a digit in bases up to 36: decimal digits, then letters in either case. -/
def digitValue (c : Char) : Option Nat :=
  if isDigit c then some (c.toNat - '0'.toNat)
  else if 'a' ≤ lower c && lower c ≤ 'z' then some ((lower c).toNat - 'a'.toNat + 10)
  else none

/-- What an underscore check last saw. -/
inductive Seen where
  | start
  | digit
  | underscore
  | other
  deriving DecidableEq

/-- Whether the underscores of a literal stand only between digits, or between a base prefix
and a digit: never first, last, doubled or next to another character. -/
def underscoresFit (cs : List Char) : Bool :=
  let cs := match cs with
    | c :: rest => if c == '-' || c == '+' then rest else c :: rest
    | [] => []
  let (hex, seen, body) := match cs with
    | '0' :: b :: rest =>
      if lower b == 'b' || lower b == 'o' || lower b == 'x' then (lower b == 'x', Seen.digit, rest)
      else (false, Seen.start, cs)
    | _ => (false, Seen.start, cs)
  let step := fun (acc : Option Seen) (c : Char) => match acc with
    | none => none
    | some seen =>
      if isDigit c || (hex && 'a' ≤ lower c && lower c ≤ 'f') then some .digit
      else if c == '_' then (if seen == .digit then some .underscore else none)
      else if seen == .underscore then none
      else some .other
  match body.foldl step (some seen) with
  | some .underscore => false
  | some _ => true
  | none => false

/-- Reads digits in `base` onto `n`, skipping underscores; a digit too large for the base or a
character that is no digit is malformed, a value reaching `2 ^ 64` out of range. -/
def unsignedDigits (base : Nat) : List Char → Nat → Except Refusal Nat
  | [], n => .ok n
  | c :: cs, n =>
    if c == '_' then unsignedDigits base cs n
    else match digitValue c with
      | none => .error .malformed
      | some d =>
        if base ≤ d then .error .malformed
        else if 2 ^ (64 : Nat) ≤ n * base + d then .error .outOfRange
        else unsignedDigits base cs (n * base + d)

/-- Reads an unsigned whole number with its base prefix. -/
def readUnsigned (cs : List Char) : Except Refusal Nat := do
  if cs.isEmpty then throw .malformed
  let (base, body) := match cs with
    | '0' :: b :: c :: rest =>
      if lower b == 'b' then (2, c :: rest)
      else if lower b == 'o' then (8, c :: rest)
      else if lower b == 'x' then (16, c :: rest)
      else (8, b :: c :: rest)
    | '0' :: rest => (8, rest)
    | _ => (10, cs)
  let n ← unsignedDigits base body 0
  if cs.contains '_' && !underscoresFit cs then throw .malformed
  pure n

/-- Reads a signed 64-bit whole number. -/
def readInt (s : String) : Except Refusal Int := do
  let cs := s.toList
  if cs.isEmpty then throw .malformed
  let (neg, body) := match cs with
    | '+' :: rest => (false, rest)
    | '-' :: rest => (true, rest)
    | _ => (false, cs)
  let n ← readUnsigned body
  if !neg && 2 ^ (63 : Nat) ≤ n then throw .outOfRange
  if neg && 2 ^ (63 : Nat) < n then throw .outOfRange
  pure (if neg then -(n : Int) else n)

/-- Reads a truth value. -/
def readBool : String → Option Bool
  | "1" | "t" | "T" | "TRUE" | "true" | "True" => some true
  | "0" | "f" | "F" | "FALSE" | "false" | "False" => some false
  | _ => none

/-- The digits of a mantissa read so far: their value as one natural, how many follow the
point, and whether a digit and a point were seen. -/
structure Mantissa where
  value : Nat
  fraction : Nat
  sawDigit : Bool
  sawPoint : Bool

/-- Reads mantissa digits in base 10 or 16, underscores and one point, up to the first other
character: the mantissa and what is left. -/
def scanMantissa (base : Nat) : List Char → Mantissa → Mantissa × List Char
  | [], m => (m, [])
  | c :: cs, m =>
    if c == '_' then scanMantissa base cs m
    else if c == '.' then
      if m.sawPoint then (m, c :: cs) else scanMantissa base cs { m with sawPoint := true }
    else
      let d := if isDigit c then some (c.toNat - '0'.toNat)
        else if base == 16 && 'a' ≤ lower c && lower c ≤ 'f' then some ((lower c).toNat - 'a'.toNat + 10)
        else none
      match d with
      | some d =>
        scanMantissa base cs { m with value := m.value * base + d, sawDigit := true,
                                      fraction := if m.sawPoint then m.fraction + 1 else m.fraction }
      | none => (m, c :: cs)

/-- Reads exponent digits and underscores; the exponent stops growing once it reaches 10000. -/
def scanExponent : List Char → Nat → Nat × List Char
  | [], e => (e, [])
  | c :: cs, e =>
    if c == '_' then scanExponent cs e
    else if isDigit c then scanExponent cs (if e < 10000 then e * 10 + (c.toNat - '0'.toNat) else e)
    else (e, c :: cs)

/-- Reads an exponent after its letter: an optional sign, then at least one digit. -/
def readExponent (cs : List Char) : Option (Int × List Char) :=
  let (sign, cs) : Int × List Char := match cs with
    | '+' :: rest => (1, rest)
    | '-' :: rest => (-1, rest)
    | _ => (1, cs)
  match cs with
  | c :: _ =>
    if isDigit c then
      let (e, rest) := scanExponent cs 0
      some (sign * e, rest)
    else none
  | [] => none

/-- The double nearest `±m * 2 ^ e`, ties to even. -/
def binaryValue (neg : Bool) (m : Nat) (e : Int) : Float :=
  if 0 ≤ e then Decimal.toFloat neg ⟨m * 2 ^ e.toNat, 0⟩
  else Decimal.toFloat neg ⟨m * 5 ^ (-e).toNat, e⟩

/-- Reads a finite literal (no `inf` or `nan`) after its sign. -/
def readFinite (neg : Bool) (cs : List Char) : Option Float :=
  let (hex, body) := match cs with
    | '0' :: x :: c :: rest => if lower x == 'x' then (true, c :: rest) else (false, cs)
    | _ => (false, cs)
  let (m, rest) := scanMantissa (if hex then 16 else 10) body ⟨0, 0, false, false⟩
  if !m.sawDigit then none else
  let exponent : Option (Int × List Char) := match rest with
    | c :: more => if lower c == (if hex then 'p' else 'e') then readExponent more
      else if hex then none else some (0, rest)
    | [] => if hex then none else some (0, [])
  match exponent with
  | some (e, []) =>
    if hex then some (binaryValue neg m.value (e - 4 * m.fraction))
    else some (Decimal.toFloat neg ⟨m.value, e - m.fraction⟩)
  | _ => none

/-- The infinities and NaN spelled as words. -/
def special (cs : List Char) : Option Float :=
  let word := fun (w : List Char) => String.ofList (w.map lower)
  match cs with
  | '+' :: rest => if word rest == "inf" || word rest == "infinity" then some (1.0 / 0.0) else none
  | '-' :: rest => if word rest == "inf" || word rest == "infinity" then some (-(1.0 / 0.0)) else none
  | _ =>
    if word cs == "inf" || word cs == "infinity" then some (1.0 / 0.0)
    else if word cs == "nan" then some (0.0 / 0.0)
    else none

/-- Reads a real number. -/
def readFloat (s : String) : Except Refusal Float :=
  let cs := s.toList
  match special cs with
  | some x => .ok x
  | none =>
    let (neg, body) := match cs with
      | '+' :: rest => (false, rest)
      | '-' :: rest => (true, rest)
      | _ => (false, cs)
    match readFinite neg body with
    | none => .error .malformed
    | some x =>
      if cs.contains '_' && !underscoresFit cs then .error .malformed
      else if x.isInf then .error .outOfRange
      else .ok x

end Literal

end CommandLine

end ArmReach
