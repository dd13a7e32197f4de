import ArmReach.Logging.Level
import ArmReach.Kinematics.Failure
/-!
# Log entries

An entry is what a logger writes: its level, the logger's name, a message and fields. A field
is a key and a value; values are the shapes of JSON data plus failures, which a log shows by
their message.

A `Journal` is the logger a solver is handed: a name, a level, and the entries written so far.
A message below the journal's level is dropped.
-/

namespace ArmReach

namespace Logging

/-- The value of a log field. -/
inductive Value where
  | null
  | bool (b : Bool)
  | number (x : Float)
  | text (s : String)
  | list (items : List Value)
  | object (members : List (String × Value))
  | failure (f : Failure)
  deriving Inhabited

/-- A list of numbers as a field value. -/
def Value.numbers (xs : List Float) : Value := .list (xs.map .number)

/-- A count as a field value. -/
def Value.count (n : Nat) : Value := .number n.toFloat

/-- One written log message. -/
structure Entry where
  level : Level
  logger : String
  message : String
  fields : List (String × Value)
  deriving Inhabited

/-- A named logger at a level, with the entries written to it. -/
structure Journal where
  name : String := ""
  level : Level := .debug
  entries : Array Entry := #[]
  deriving Inhabited

namespace Journal

/-- Writes a message with fields, if the journal's level admits it. -/
def write (j : Journal) (level : Level) (message : String) (fields : List (String × Value)) :
    Journal :=
  if j.level.admits level then { j with entries := j.entries.push ⟨level, j.name, message, fields⟩ }
  else j

/-- Writes a debug message. -/
def debug (j : Journal) (message : String) (fields : List (String × Value)) : Journal :=
  j.write .debug message fields

end Journal

end Logging

end ArmReach
