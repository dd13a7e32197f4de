import ArmReach.Json.Syntax
import ArmReach.Text.Quote
/-!
# Log levels

Four levels in increasing severity, numbered -1 to 2: debug, info, warn and error. A logger at
some level writes the messages at that level and above.

A level is read from its name in any letter case, and `warning` is also read as warn. A level is
written as `Debug`, `Info`, `Warn` or `Error` (in JSON as that string), and in lower case in
log entries. Only the numbers -1 to 2 name a level; `Level.ofInt?` says none for the rest, and
naming such a number breaks down with `unreachable: n` (`Level.describeInt`).
-/

namespace ArmReach

namespace Logging

/-- The severity of a log message. -/
inductive Level where
  | debug
  | info
  | warn
  | error
  deriving DecidableEq, Repr, Inhabited

namespace Level

/-- The number of a level: -1 for debug up to 2 for error. -/
def toInt : Level → Int
  | .debug => -1
  | .info => 0
  | .warn => 1
  | .error => 2

/-- The level with a number, if any. -/
def ofInt? (n : Int) : Option Level :=
  [Level.debug, .info, .warn, .error].find? (·.toInt == n)

/-- Whether a message at `msg` is written by a logger at `self`: its level is at least as
severe. -/
def admits (self msg : Level) : Bool := self.toInt ≤ msg.toInt

/-- The capitalised name of a level. -/
def name : Level → String
  | .debug => "Debug"
  | .info => "Info"
  | .warn => "Warn"
  | .error => "Error"

/-- The lower-case name of a level, as entries carry it. -/
def entryName : Level → String
  | .debug => "debug"
  | .info => "info"
  | .warn => "warn"
  | .error => "error"

/-- The lower case of a character as level names are compared: ASCII capitals, and the two
other capitals whose lower case is an ASCII letter (dotted capital I and the Kelvin sign). -/
def lowerChar (c : Char) : Char :=
  if 'A' ≤ c && c ≤ 'Z' then Char.ofNat (c.toNat + 32)
  else if c.toNat == 0x130 then 'i'
  else if c.toNat == 0x212A then 'k'
  else c

/-- Reads a level from its name, in any letter case; `warning` is warn. -/
def parse (s : String) : Except String Level :=
  match s.map lowerChar with
  | "debug" => .ok .debug
  | "info" => .ok .info
  | "warn" | "warning" => .ok .warn
  | "error" => .ok .error
  | _ => .error ("unknown log level: " ++ Text.quote s)

/-- Reads a level from a JSON document holding its name; `null` holds the empty name. -/
def ofJson (text : String) : Except String Level := do
  match ← JsonValue.read text with
  | .string s => parse s
  | .null => parse ""
  | v => .error ("json: cannot unmarshal " ++ v.kindName ++ " into Go value of type string")

/-- The JSON form of a level: its capitalised name as a JSON string (the names need no
escapes). -/
def toJson (l : Level) : String := "\"" ++ l.name ++ "\""

/-- A name of the level numbered `n`, as `describe` gives it (the capitalised name, or the
lower-case one of log entries). A level is a number, and a number outside `-1 … 2` names no
level: asking for its name breaks down with `unreachable: n`. -/
def describeInt (describe : Level → String) (n : Int) : Except String String :=
  match ofInt? n with
  | some l => .ok (describe l)
  | none => .error ("unreachable: " ++ toString n)

end Level

end Logging

end ArmReach
