import ArmReach.Kinematics.Arm
import ArmReach.Json.Syntax
import ArmReach.Json.Number
/-!
# Model files

A model file is a JSON object with the chain's `name`, its `joints` (each with an `id`, a
`translation` and an `axis` given as `{x, y, z}`, `min` and `max` in degrees, and a
`continuous` flag) and its `end_effector` offset. Reading it follows the rules of typed JSON
decoding:

* member names match the fields case-insensitively (ASCII case, and `ſ` and the Kelvin sign
  with `s` and `k`), an exact match first; unknown members are skipped;
* a member written twice is decoded twice into the same field, so objects merge and an array
  reuses the joints already decoded at the same positions;
* `null` leaves a field as it is, and clears the joint list;
* a value of the wrong kind, or a number too large for a double, is a type error naming the
  field's path; decoding goes on, and the first type error is the one reported.

`Chain.ofModelText` then builds the chain, with ranges in radians and a continuous joint turning
freely.
-/

namespace ArmReach

/-- One joint as a model file describes it. -/
structure JointConfig where
  id : String := ""
  translation : Vec3 := Vec3.zero
  axis : Vec3 := Vec3.zero
  min : Float := 0
  max : Float := 0
  continuous : Bool := false
  deriving Inhabited

/-- The joint list being decoded: `slots` are the decoded joints with the spare ones after
them, as many as the list's capacity; `count` of them are in the list. -/
structure JointSlots where
  slots : List JointConfig := []
  count : Nat := 0
  deriving Inhabited

/-- A model file's contents. -/
structure ModelConfig where
  name : String := ""
  joints : JointSlots := {}
  endEffector : Vec3 := Vec3.zero
  deriving Inhabited

namespace ModelFile

/-- The first type error so far, if any. -/
abbrev Decode := StateM (Option String)

/-- Records a type error unless one was recorded before. -/
def typeError (what : String) (path : List String) (typeName : String) : Decode Unit :=
  modify fun e => e <|> some (
    if path.isEmpty then
      "json: cannot unmarshal " ++ what ++ " into Go value of type " ++ typeName
    else
      "json: cannot unmarshal " ++ what ++ " into Go struct field ModelConfigJSON." ++
        ".".intercalate path ++ " of type " ++ typeName)

/-- A member name folded for case-insensitive matching. -/
def foldKey (s : String) : String :=
  String.ofList (s.toList.map fun c =>
    if 'a' ≤ c ∧ c ≤ 'z' then Char.ofNat (c.toNat - 32)
    else if c = 'ſ' then 'S'
    else if c.toNat = 0x212A then 'K'
    else c)

/-- The field a member name selects among `fields`: an exact match, else a folded one. -/
def matchField (fields : List String) (key : String) : Option String :=
  if fields.contains key then some key
  else fields.find? fun f => foldKey f == foldKey key

/-- A string field. -/
def decodeString (v : JsonValue) (path : List String) (old : String) : Decode String :=
  match v with
  | .string s => pure s
  | .null => pure old
  | v => do typeError v.kindName path "string"; pure old

/-- A number field. -/
def decodeFloat (v : JsonValue) (path : List String) (old : Float) : Decode Float :=
  match v with
  | .number lit =>
    match Json.readNumber lit with
    | some x => pure x
    | none => do typeError ("number " ++ lit) path "float64"; pure old
  | .null => pure old
  | v => do typeError v.kindName path "float64"; pure old

/-- A flag field. -/
def decodeBool (v : JsonValue) (path : List String) (old : Bool) : Decode Bool :=
  match v with
  | .bool b => pure b
  | .null => pure old
  | v => do typeError v.kindName path "bool"; pure old

/-- Decodes the members of an object one by one into a value, each member through `field`
when its name selects one of `fields`. -/
def decodeMembers {α : Type} (fields : List String)
    (field : String → JsonValue → α → Decode α) (members : List (String × JsonValue)) (old : α) :
    Decode α :=
  members.foldlM (fun acc (k, v) =>
    match matchField fields k with
    | some f => field f v acc
    | none => pure acc) old

/-- An object-valued field decoded with `members`; other kinds are type errors. -/
def decodeObject {α : Type} (typeName : String) (path : List String)
    (members : List (String × JsonValue) → α → Decode α) (v : JsonValue) (old : α) : Decode α :=
  match v with
  | .object ms => members ms old
  | .null => pure old
  | v => do typeError v.kindName path typeName; pure old

/-- A `{x, y, z}` vector. -/
def decodeVector (path : List String) : JsonValue → Vec3 → Decode Vec3 :=
  decodeObject "referenceframe.VectorConfig" path <| decodeMembers ["x", "y", "z"] fun f v p =>
    match f with
    | "x" => do pure { p with x := ← decodeFloat v (path ++ ["x"]) p.x }
    | "y" => do pure { p with y := ← decodeFloat v (path ++ ["y"]) p.y }
    | _ => do pure { p with z := ← decodeFloat v (path ++ ["z"]) p.z }

/-- One joint. -/
def decodeJoint (path : List String) : JsonValue → JointConfig → Decode JointConfig :=
  decodeObject "referenceframe.JointConfigJSON" path <|
    decodeMembers ["id", "translation", "axis", "min", "max", "continuous"] fun f v j =>
      match f with
      | "id" => do pure { j with id := ← decodeString v (path ++ ["id"]) j.id }
      | "translation" => do
        pure { j with translation := ← decodeVector (path ++ ["translation"]) v j.translation }
      | "axis" => do pure { j with axis := ← decodeVector (path ++ ["axis"]) v j.axis }
      | "min" => do pure { j with min := ← decodeFloat v (path ++ ["min"]) j.min }
      | "max" => do pure { j with max := ← decodeFloat v (path ++ ["max"]) j.max }
      | _ => do pure { j with continuous := ← decodeBool v (path ++ ["continuous"]) j.continuous }

/-- The size in bytes of a stored joint description. -/
def jointBytes : Nat := 88

/-- Allocation size classes in bytes, up to 32 KiB. -/
def sizeClasses : List Nat :=
  [8, 16, 24, 32, 48, 64, 80, 96, 112, 128, 144, 160, 176, 192, 208, 224, 240, 256, 288, 320,
   352, 384, 416, 448, 480, 512, 576, 640, 704, 768, 896, 1024, 1152, 1280, 1408, 1536, 1792,
   2048, 2304, 2688, 3072, 3200, 3456, 4096, 4864, 5376, 6144, 6528, 6784, 6912, 8192, 9472,
   9728, 10240, 10880, 12288, 13568, 14336, 16384, 18432, 19072, 20480, 21760, 24576, 27264,
   28672, 32768]

/-- The capacity a full joint list of capacity `cap` grows to for one more joint: double
(or a quarter more beyond 256), rounded up to what the allocation holds. -/
def grownCapacity (cap : Nat) : Nat :=
  let newLen := cap + 1
  let doubled := 2 * cap
  let want := if newLen > doubled then newLen
    else if cap < 256 then doubled
    else Id.run do
      let mut c := cap
      for _ in [0:64] do
        if c < newLen then c := c + (c + 768) / 4
      return c
  let bytes := want * jointBytes
  let rounded := match sizeClasses.find? (bytes ≤ ·) with
    | some b => b
    | none => (bytes + 8191) / 8192 * 8192
  rounded / jointBytes

/-- The joint list decoded from the elements of an array, reusing the slots already there. -/
def decodeJointItems (path : List String) (items : List JsonValue) (js : JointSlots) :
    Decode JointSlots := do
  let mut slots := js.slots
  let mut i := 0
  for item in items do
    if i ≥ slots.length then
      slots := slots.take i ++ List.replicate (grownCapacity slots.length - i) ({} : JointConfig)
    let j ← decodeJoint (path ++ [toString i]) item (slots.getD i ({} : JointConfig))
    slots := slots.set i j
    i := i + 1
  if i = 0 then return {} else return ⟨slots, i⟩

/-- The `joints` field. -/
def decodeJoints (path : List String) (v : JsonValue) (js : JointSlots) : Decode JointSlots :=
  match v with
  | .array items => decodeJointItems path items js
  | .null => pure {}
  | v => do typeError v.kindName path "[]referenceframe.JointConfigJSON"; pure js

/-- The whole file. -/
def decodeModel : JsonValue → ModelConfig → Decode ModelConfig :=
  decodeObject "referenceframe.ModelConfigJSON" [] <|
    decodeMembers ["name", "joints", "end_effector"] fun f v m =>
      match f with
      | "name" => do pure { m with name := ← decodeString v ["name"] m.name }
      | "joints" => do pure { m with joints := ← decodeJoints ["joints"] v m.joints }
      | _ => do pure { m with endEffector := ← decodeVector ["end_effector"] v m.endEffector }

end ModelFile

namespace ModelConfig

/-- The contents of a model file, or why they cannot be read. -/
def read (text : String) : Except String ModelConfig := do
  let v ← JsonValue.read text
  let (m, err) := (ModelFile.decodeModel v {}).run none
  match err with
  | some e => throw e
  | none => pure m

/-- The joints of the file: ranges converted from degrees, continuous joints free. -/
def chainJoints (m : ModelConfig) : List Joint :=
  (m.joints.slots.take m.joints.count).map fun j =>
    ⟨j.id, j.translation, j.axis,
      if j.continuous then Limit.free else ⟨Chain.degToRad j.min, Chain.degToRad j.max, false⟩⟩

end ModelConfig

namespace Chain

/-- The chain a model file describes, named `name` unless that is empty, in which case the
file's own name is used. -/
def ofModelText (text : String) (name : String) : Except Failure Chain := do
  if text.isEmpty then throw .noModelInformation
  let m ← match ModelConfig.read text with
    | .ok m => pure m
    | .error e => throw (.wrap "failed to unmarshal json file" (.plain e))
  let name := if name.isEmpty then m.name else name
  match make name m.chainJoints m.endEffector with
  | .ok c => pure c
  | .error e => throw (.wrap s!"invalid model {Text.quote name}" e)

end Chain

end ArmReach
