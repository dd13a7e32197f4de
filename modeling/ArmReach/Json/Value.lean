/-!
# JSON documents

A JSON document as written: numbers keep their literal text (so that each consumer decides how
to read them), and objects keep their members in document order, duplicates included, because
a reader that takes the last of two equal keys must see both.
-/

namespace ArmReach

/-- A JSON value, members and elements in document order. -/
inductive JsonValue where
  | null
  | bool (b : Bool)
  | number (literal : String)
  | string (s : String)
  | array (items : List JsonValue)
  | object (members : List (String × JsonValue))
  deriving Inhabited

namespace JsonValue

/-- The word for the kind of a value, as type errors name it. -/
def kindName : JsonValue → String
  | .null => "null"
  | .bool _ => "bool"
  | .number _ => "number"
  | .string _ => "string"
  | .array _ => "array"
  | .object _ => "object"

end JsonValue

end ArmReach
