import ArmReach.Json.Value
import ArmReach.Decimal.Read
/-!
# JSON numbers as doubles

The text of a JSON number, `-? int frac? exp?`, read as the nearest double. `readNumber`
gives `none` for a number too large for a double (one that rounds to infinity).
-/

namespace ArmReach

namespace Json

/-- The value of a string of decimal digits. -/
def digitsValue (cs : List Char) : Nat := cs.foldl (fun n c => 10 * n + (c.toNat - '0'.toNat)) 0

/-- The decimal written by a JSON number literal, and its sign. -/
def literalDecimal (text : String) : Bool × Decimal :=
  let cs := text.toList
  let (neg, cs) := match cs with
    | '-' :: rest => (true, rest)
    | _ => (false, cs)
  let intPart := cs.takeWhile Char.isDigit
  let cs := cs.drop intPart.length
  let (frac, cs) := match cs with
    | '.' :: rest => (rest.takeWhile Char.isDigit, rest.drop (rest.takeWhile Char.isDigit).length)
    | _ => ([], cs)
  let exp : Int := match cs with
    | c :: rest =>
      if c = 'e' ∨ c = 'E' then
        match rest with
        | '-' :: ds => -(digitsValue ds : Int)
        | '+' :: ds => digitsValue ds
        | ds => digitsValue ds
      else 0
    | [] => 0
  (neg, ⟨digitsValue (intPart ++ frac), exp - frac.length⟩)

/-- The nearest double to a JSON number literal, or `none` when it overflows. -/
def readNumber (text : String) : Option Float :=
  let (neg, d) := literalDecimal text
  let x := Decimal.toFloat neg d
  if x.isInf then none else some x

end Json

end ArmReach
