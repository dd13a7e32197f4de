import ArmReach.Json.Value
import ArmReach.Text.Quote
/-!
# JSON syntax

`JsonValue.read` checks a text against the JSON grammar and builds its value. The check is a
scanner that reads one character at a time in a small set of states (`ScanState`) with a stack
of open arrays and objects; the first character that no state admits is reported as
`invalid character 'c' <where>`, the place named by the state, and a text that stops inside a
value as `unexpected end of JSON input`. At the end the scanner is given one blank, so that a
number or literal cut short is reported at that blank. Nesting deeper than 10000 is refused.

A character outside ASCII is reported by its first UTF-8 byte, shown as the character with
that code. Building the value then needs no further checks: strings are unescaped (an unpaired
surrogate escape becomes U+FFFD) and numbers keep their text.
-/

namespace ArmReach

namespace Json

/-- What an open container expects next. -/
inductive Frame where
  | objectKey
  | objectValue
  | arrayValue
  deriving DecidableEq

/-- The scanner's state: what the next character may be. -/
inductive ScanState where
  | beginValue
  | beginValueOrEmpty
  | beginStringOrEmpty
  | beginString
  | inString
  | inStringEsc
  | inStringEscU (digitsLeft : Nat)
  | neg
  | zero
  | one
  | dot
  | dot0
  | exp
  | expSign
  | exp0
  /-- Inside a literal word, with the characters still expected. -/
  | literal (word : String) (rest : List Char)
  | endValue
  | endTop
  deriving DecidableEq

/-- The scanner: state, open containers (innermost first), and whether a complete top-level
value has been read. -/
structure Scanner where
  state : ScanState
  stack : List Frame
  done : Bool

/-- The deepest nesting accepted. -/
def maxDepth : Nat := 10000

/-- The first UTF-8 byte of a character, as the character with that code. -/
def leadByte (c : Char) : Char :=
  let n := c.toNat
  if n < 0x80 then c
  else if n < 0x800 then Char.ofNat (0xC0 + n / 0x40)
  else if n < 0x10000 then Char.ofNat (0xE0 + n / 0x1000)
  else Char.ofNat (0xF0 + n / 0x40000)

/-- A character in single quotes, escaped as in a quoted string. -/
def quoteChar (c : Char) : String :=
  if c = '\'' then "'\\''"
  else if c = '"' then "'\"'"
  else "'" ++ Text.escapeIn '"' c ++ "'"

/-- The syntax error at `c` in the place `context`. -/
def invalid (c : Char) (context : String) : String :=
  "invalid character " ++ quoteChar (leadByte c) ++ " " ++ context

/-- JSON blanks. -/
def isBlank (c : Char) : Bool := c = ' ' ∨ c = '\t' ∨ c = '\r' ∨ c = '\n'

/-- Whether a character is a hexadecimal digit. -/
def isHex (c : Char) : Bool := c.isDigit ∨ ('a' ≤ c ∧ c ≤ 'f') ∨ ('A' ≤ c ∧ c ≤ 'F')

namespace Scanner

/-- Closes the innermost container. -/
def closed (s : Scanner) (rest : List Frame) : Scanner :=
  if rest.isEmpty then { s with state := .endTop, stack := [], done := true }
  else { s with state := .endValue, stack := rest }

/-- The scanner after a value ends: the enclosing container expects a separator or its end,
or the top level is complete. -/
def afterValue (s : Scanner) (c : Char) : Except String Scanner :=
  match s.stack with
  | [] =>
    if isBlank c then .ok { s with state := .endTop, done := true }
    else .error (invalid c "after top-level value")
  | f :: rest =>
    if isBlank c then .ok { s with state := .endValue }
    else match f with
      | .objectKey =>
        if c = ':' then .ok { s with state := .beginValue, stack := .objectValue :: rest }
        else .error (invalid c "after object key")
      | .objectValue =>
        if c = ',' then .ok { s with state := .beginString, stack := .objectKey :: rest }
        else if c = '}' then .ok (s.closed rest)
        else .error (invalid c "after object key:value pair")
      | .arrayValue =>
        if c = ',' then .ok { s with state := .beginValue }
        else if c = ']' then .ok (s.closed rest)
        else .error (invalid c "after array element")

/-- Opens a container. -/
def push (s : Scanner) (c : Char) (f : Frame) (next : ScanState) : Except String Scanner :=
  if s.stack.length + 1 ≤ maxDepth then .ok { s with state := next, stack := f :: s.stack }
  else .error (invalid c "exceeded max depth")

/-- The scanner at the start of a value. -/
def beginValue (s : Scanner) (c : Char) : Except String Scanner :=
  if isBlank c then .ok { s with state := .beginValue }
  else if c = '{' then s.push c .objectKey .beginStringOrEmpty
  else if c = '[' then s.push c .arrayValue .beginValueOrEmpty
  else if c = '"' then .ok { s with state := .inString }
  else if c = '-' then .ok { s with state := .neg }
  else if c = '0' then .ok { s with state := .zero }
  else if c = 't' then .ok { s with state := .literal "true" ['r', 'u', 'e'] }
  else if c = 'f' then .ok { s with state := .literal "false" ['a', 'l', 's', 'e'] }
  else if c = 'n' then .ok { s with state := .literal "null" ['u', 'l', 'l'] }
  else if '1' ≤ c ∧ c ≤ '9' then .ok { s with state := .one }
  else .error (invalid c "looking for beginning of value")

/-- The scanner after an exponent mark and its optional sign. -/
def expSign (s : Scanner) (c : Char) : Except String Scanner :=
  if c.isDigit then .ok { s with state := .exp0 }
  else .error (invalid c "in exponent of numeric literal")

/-- One character through the scanner. -/
def step (s : Scanner) (c : Char) : Except String Scanner :=
  match s.state with
  | .beginValue => s.beginValue c
  | .beginValueOrEmpty =>
    if isBlank c then .ok s
    else if c = ']' then s.afterValue c
    else s.beginValue c
  | .beginStringOrEmpty =>
    if isBlank c then .ok s
    else if c = '}' then
      match s.stack with
      | _ :: rest => { s with stack := .objectValue :: rest }.afterValue c
      | [] => s.afterValue c
    else if c = '"' then .ok { s with state := .inString }
    else .error (invalid c "looking for beginning of object key string")
  | .beginString =>
    if isBlank c then .ok s
    else if c = '"' then .ok { s with state := .inString }
    else .error (invalid c "looking for beginning of object key string")
  | .inString =>
    if c = '"' then .ok { s with state := .endValue }
    else if c = '\\' then .ok { s with state := .inStringEsc }
    else if c.toNat < 0x20 then .error (invalid c "in string literal")
    else .ok s
  | .inStringEsc =>
    if c ∈ ['b', 'f', 'n', 'r', 't', '\\', '/', '"'] then .ok { s with state := .inString }
    else if c = 'u' then .ok { s with state := .inStringEscU 4 }
    else .error (invalid c "in string escape code")
  | .inStringEscU k =>
    if isHex c then .ok { s with state := if k ≤ 1 then .inString else .inStringEscU (k - 1) }
    else .error (invalid c "in \\u hexadecimal character escape")
  | .neg =>
    if c = '0' then .ok { s with state := .zero }
    else if '1' ≤ c ∧ c ≤ '9' then .ok { s with state := .one }
    else .error (invalid c "in numeric literal")
  | .one =>
    if c.isDigit then .ok s
    else if c = '.' then .ok { s with state := .dot }
    else if c = 'e' ∨ c = 'E' then .ok { s with state := .exp }
    else s.afterValue c
  | .zero =>
    if c = '.' then .ok { s with state := .dot }
    else if c = 'e' ∨ c = 'E' then .ok { s with state := .exp }
    else s.afterValue c
  | .dot =>
    if c.isDigit then .ok { s with state := .dot0 }
    else .error (invalid c "after decimal point in numeric literal")
  | .dot0 =>
    if c.isDigit then .ok s
    else if c = 'e' ∨ c = 'E' then .ok { s with state := .exp }
    else s.afterValue c
  | .exp =>
    if c = '+' ∨ c = '-' then .ok { s with state := .expSign }
    else s.expSign c
  | .expSign => s.expSign c
  | .exp0 => if c.isDigit then .ok s else s.afterValue c
  | .literal word rest =>
    match rest with
    | [] => s.afterValue c
    | [d] =>
      if c = d then .ok { s with state := .endValue }
      else .error (invalid c s!"in literal {word} (expecting {quoteChar d})")
    | d :: more =>
      if c = d then .ok { s with state := .literal word more }
      else .error (invalid c s!"in literal {word} (expecting {quoteChar d})")
  | .endValue => s.afterValue c
  | .endTop =>
    if isBlank c then .ok s else .error (invalid c "after top-level value")

end Scanner

/-- Whether a text is one JSON value with blanks around it, or the syntax error. -/
def check (text : String) : Except String Unit := do
  let s ← text.toList.foldlM Scanner.step ⟨.beginValue, [], false⟩
  if s.done then return ()
  let s ← s.step ' '
  if s.done then return ()
  throw "unexpected end of JSON input"

/-! ### Building the value of a checked text -/

/-- The value of four hexadecimal digits. -/
def hexValue (cs : List Char) : Nat :=
  cs.foldl (fun n c =>
    16 * n + (if c.isDigit then c.toNat - '0'.toNat
      else if 'a' ≤ c ∧ c ≤ 'f' then c.toNat - 'a'.toNat + 10 else c.toNat - 'A'.toNat + 10)) 0

/-- The escape `\uXXXX` at the start, as its code and the rest. -/
def unicodeEscape? : List Char → Option (Nat × List Char)
  | '\\' :: 'u' :: a :: b :: c :: d :: rest => some (hexValue [a, b, c, d], rest)
  | _ => none

/-- The characters of a string body up to its closing quote, unescaped (in reverse onto
`acc`), and the rest; `fuel` bounds the characters read. -/
def unescapeFuel : Nat → List Char → List Char → List Char × List Char
  | 0, acc, rest => (acc.reverse, rest)
  | _ + 1, acc, [] => (acc.reverse, [])
  | fuel + 1, acc, c :: rest =>
    if c = '"' then (acc.reverse, rest)
    else match unicodeEscape? (c :: rest) with
      | some (u, rest) =>
        if 0xD800 ≤ u ∧ u < 0xDC00 then
          match unicodeEscape? rest with
          | some (v, rest') =>
            if 0xDC00 ≤ v ∧ v < 0xE000 then
              unescapeFuel fuel (Char.ofNat (0x10000 + (u - 0xD800) * 0x400 + (v - 0xDC00)) :: acc) rest'
            else unescapeFuel fuel ('\ufffd' :: acc) rest
          | none => unescapeFuel fuel ('\ufffd' :: acc) rest
        else if 0xDC00 ≤ u ∧ u < 0xE000 then unescapeFuel fuel ('\ufffd' :: acc) rest
        else unescapeFuel fuel (Char.ofNat u :: acc) rest
      | none =>
        match c, rest with
        | '\\', e :: rest =>
          let d := match e with
            | 'b' => '\x08' | 'f' => '\x0c' | 'n' => '\n' | 'r' => '\r' | 't' => '\t' | x => x
          unescapeFuel fuel (d :: acc) rest
        | _, _ => unescapeFuel fuel (c :: acc) rest

/-- The characters of a string body up to its closing quote, unescaped, and the rest. -/
def unescape (cs : List Char) : List Char × List Char := unescapeFuel (cs.length + 1) [] cs

/-- Skips blanks. -/
def skipBlanks (cs : List Char) : List Char := cs.dropWhile isBlank

/-- Whether a character can continue a number literal. -/
def isNumberChar (c : Char) : Bool := c.isDigit ∨ c ∈ ['-', '+', '.', 'e', 'E']

mutual

/-- The value at the start of a checked text, and the rest; `fuel` bounds the nesting. -/
def parseValue : Nat → List Char → Option (JsonValue × List Char)
  | 0, _ => none
  | fuel + 1, cs =>
    match skipBlanks cs with
    | '{' :: rest => parseMembers fuel (skipBlanks rest) []
    | '[' :: rest => parseItems fuel (skipBlanks rest) []
    | '"' :: rest =>
      let (s, r) := unescape rest
      some (.string (String.ofList s), r)
    | 't' :: 'r' :: 'u' :: 'e' :: rest => some (.bool true, rest)
    | 'f' :: 'a' :: 'l' :: 's' :: 'e' :: rest => some (.bool false, rest)
    | 'n' :: 'u' :: 'l' :: 'l' :: rest => some (.null, rest)
    | cs' =>
      let lit := cs'.takeWhile isNumberChar
      if lit.isEmpty then none else some (.number (String.ofList lit), cs'.drop lit.length)

/-- Object members up to the closing brace. -/
def parseMembers : Nat → List Char → List (String × JsonValue) →
    Option (JsonValue × List Char)
  | 0, _, _ => none
  | _ + 1, '}' :: rest, acc => some (.object acc.reverse, rest)
  | fuel + 1, '"' :: rest, acc =>
    let (k, r) := unescape rest
    match skipBlanks r with
    | ':' :: r' =>
      match parseValue fuel r' with
      | some (v, r'') =>
        match skipBlanks r'' with
        | ',' :: r3 => parseMembers fuel (skipBlanks r3) ((String.ofList k, v) :: acc)
        | '}' :: r3 => some (.object ((String.ofList k, v) :: acc).reverse, r3)
        | _ => none
      | none => none
    | _ => none
  | _ + 1, _, _ => none

/-- Array elements up to the closing bracket. -/
def parseItems : Nat → List Char → List JsonValue → Option (JsonValue × List Char)
  | 0, _, _ => none
  | _ + 1, ']' :: rest, acc => some (.array acc.reverse, rest)
  | fuel + 1, cs, acc =>
    match parseValue fuel cs with
    | some (v, r) =>
      match skipBlanks r with
      | ',' :: r' => parseItems fuel (skipBlanks r') (v :: acc)
      | ']' :: r' => some (.array (v :: acc).reverse, r')
      | _ => none
    | none => none

end

end Json

namespace JsonValue

/-- The value of a JSON text, or its syntax error. -/
def read (text : String) : Except String JsonValue := do
  Json.check text
  let cs := text.toList
  match Json.parseValue (cs.length + 1) cs with
  | some (v, _) => pure v
  | none => throw "unexpected end of JSON input"

end JsonValue

end ArmReach
