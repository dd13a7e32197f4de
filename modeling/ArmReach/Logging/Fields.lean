import ArmReach.Logging.Entry
import ArmReach.Decimal.Format
import ArmReach.Text.Quote
/-!
# Writing log fields

Log fields are written as one JSON object, keys in the order given and repeated keys kept. A
value is written by its kind:

* a number positionally with the fewest digits that read back (`1e21` is written
  `1000000000000000000000`), NaN and the infinities as the strings `"NaN"`, `"+Inf"`, `"-Inf"`;
* a failure as the string of its message;
* a list or an object as a JSON document: numbers in JSON's own shortest form (`1e+21`), object
  members sorted by key.

Strings in a log record escape the quote, the backslash, line feed, carriage return and tab
with a backslash and other control characters as `\u00hh`; strings inside an embedded document
also use `\b` and `\f` and escape the line and paragraph separators.

Keys are given as values and named by their plain text (`Value.describe`): a string as itself, a
number in the general form (`1e+21`), null as `<nil>`, a list as `[a b]`, an object as
`map[k:v]`. A key left without a value gets the failure `unpaired log key`.
-/

namespace ArmReach

namespace Logging

/-- Which characters a JSON string escapes beyond the quote, backslash and controls. -/
structure Escapes where
  /-- Backspace and form feed as `\b` and `\f`. -/
  shortControls : Bool
  /-- The line and paragraph separators (U+2028, U+2029) as `\u` escapes. -/
  separators : Bool

/-- Escapes of strings in log records. -/
def Escapes.record : Escapes := ⟨false, false⟩

/-- Escapes of strings in embedded JSON documents. -/
def Escapes.document : Escapes := ⟨true, true⟩

/-- One character of a JSON string. -/
def escapeChar (e : Escapes) (c : Char) : String :=
  match c.toNat with
  | 0x22 => "\\\""
  | 0x5C => "\\\\"
  | 0x0A => "\\n"
  | 0x0D => "\\r"
  | 0x09 => "\\t"
  | 0x08 => if e.shortControls then "\\b" else "\\u0008"
  | 0x0C => if e.shortControls then "\\f" else "\\u000c"
  | n =>
    if n < 0x20 then "\\u00" ++ Text.hexPadded 2 n
    else if e.separators && (n == 0x2028 || n == 0x2029) then "\\u" ++ Text.hexPadded 4 n
    else c.toString

/-- A JSON string. -/
def jsonString (e : Escapes) (s : String) : String :=
  "\"" ++ String.join (s.toList.map (escapeChar e)) ++ "\""

/-- Inserts a member into a list sorted by key. -/
def insertByKey (m : String × α) : List (String × α) → List (String × α)
  | [] => [m]
  | n :: ns => if m.1 < n.1 then m :: n :: ns else n :: insertByKey m ns

/-- Members sorted by key, equal keys in their order. -/
def sortByKey (ms : List (String × α)) : List (String × α) := ms.foldr insertByKey []

namespace Value

mutual

/-- The plain text of a value, as keys are named. -/
def describe : Value → String
  | .null => "<nil>"
  | .bool b => toString b
  | .number x => generalText x
  | .text s => s
  | .list items => "[" ++ " ".intercalate (describeItems items) ++ "]"
  | .object members =>
    "map[" ++ " ".intercalate ((sortByKey (describeMembers members)).map fun (k, t) => k ++ ":" ++ t) ++
      "]"
  | .failure f => f.message

/-- The plain texts of list items. -/
def describeItems : List Value → List String
  | [] => []
  | v :: vs => describe v :: describeItems vs

/-- The keys of object members with the plain texts of their values. -/
def describeMembers : List (String × Value) → List (String × String)
  | [] => []
  | (k, v) :: ms => (k, describe v) :: describeMembers ms

end

mutual

/-- A value as an embedded JSON document. -/
def document : Value → String
  | .null => "null"
  | .bool b => toString b
  | .number x => jsonNumberText x
  | .text s => jsonString .document s
  | .list items => "[" ++ ",".intercalate (documentItems items) ++ "]"
  | .object members =>
    "\x7b" ++ ",".intercalate ((sortByKey (documentMembers members)).map fun (k, t) =>
      jsonString .document k ++ ":" ++ t) ++ "\x7d"
  | .failure f => jsonString .document f.message

/-- List items as JSON. -/
def documentItems : List Value → List String
  | [] => []
  | v :: vs => document v :: documentItems vs

/-- The keys of object members with their values as JSON. -/
def documentMembers : List (String × Value) → List (String × String)
  | [] => []
  | (k, v) :: ms => (k, document v) :: documentMembers ms

end

/-- A value as a field of a log record. -/
def recordText : Value → String
  | .null => "null"
  | .bool b => toString b
  | .number x =>
    match nonFiniteText x with
    | some t => "\"" ++ t ++ "\""
    | none => plainText x
  | .text s => jsonString .record s
  | .failure f => jsonString .record f.message
  | v => v.document

/-- Pairs keys and values; a key without a value gets the failure `unpaired log key`. -/
def pairs : List Value → List (String × Value)
  | [] => []
  | [k] => [(k.describe, .failure (.plain "unpaired log key"))]
  | k :: v :: rest => (k.describe, v) :: pairs rest

end Value

/-- Fields as one JSON object, in order. -/
def fieldsText (fields : List (String × Value)) : String :=
  "\x7b" ++ ",".intercalate (fields.map fun (k, v) => jsonString .record k ++ ":" ++ v.recordText) ++
    "\x7d"

end Logging

end ArmReach
