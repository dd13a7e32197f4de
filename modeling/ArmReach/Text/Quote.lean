import ArmReach.Text.Printable
/-!
# Quoted text

`Text.quote s` writes `s` between double quotes so that it can be read back unambiguously:
the quote and the backslash get a backslash, printable characters stand as they are, the
usual control characters have their one-letter escapes, other characters below `U+0020` and
`U+007F` are written `\xHH`, and the remaining unprintable ones `\uHHHH` or `\UHHHHHHHH`.
-/

namespace ArmReach

namespace Text

/-- Lower-case hexadecimal digits of `n`, padded with zeros to `width`. -/
def hexPadded (width n : Nat) : String :=
  let ds := Nat.toDigits 16 n
  String.ofList (List.replicate (width - ds.length) '0' ++ ds)

/-- The escaped form of one character inside quotes `q`. -/
def escapeIn (q : Char) (c : Char) : String :=
  if c = q ∨ c = '\\' then "\\" ++ String.singleton c
  else if isPrintable c then String.singleton c
  else match c.toNat with
    | 7 => "\\a"
    | 8 => "\\b"
    | 12 => "\\f"
    | 10 => "\\n"
    | 13 => "\\r"
    | 9 => "\\t"
    | 11 => "\\v"
    | n =>
      if n < 0x20 ∨ n = 0x7f then "\\x" ++ hexPadded 2 n
      else if n < 0x10000 then "\\u" ++ hexPadded 4 n
      else "\\U" ++ hexPadded 8 n

/-- `s` in double quotes, escaped. -/
def quote (s : String) : String :=
  "\"" ++ String.join (s.toList.map (escapeIn '"')) ++ "\""

end Text

end ArmReach
