import ArmReach.CommandLine.Literal
import ArmReach.Text.Quote
import ArmReach.Decimal.Format
/-!
# Flags and how an argument list sets them

A flag has names, a usage line and an initial value, whose kind fixes what the flag takes: a
truth value, a whole number, a real number, text, or a list of real numbers or of texts.

`parseFlags` reads flags from the front of an argument list:

* `-name` and `--name` are the same flag; `-name=value` gives a value in the argument, and a
  flag other than a truth value otherwise takes the next argument as its value. A truth flag
  without `=value` is set to true.
* Reading stops at the first argument that is not a flag (one not starting with `-`, or `-`
  alone) and after `--`; the arguments from there on are returned.
* A list flag splits its value at commas, trims white space around each piece, and adds the
  pieces to what earlier uses of the flag gave.
* The first bad argument ends the reading with its message: `bad flag syntax: …` for `---x`,
  `-=x` or `--=x`; `flag provided but not defined: -name`; `flag needs an argument: -name`;
  `invalid boolean value "v" for -name: parse error`; `invalid value "v" for flag -name: …`
  where a number gives `parse error` or `value out of range` and a list of reals the reading
  error of the piece.

The flags read before a bad argument stay set. A flag given under two of its names is refused
by `twoForms`.
-/

namespace ArmReach

namespace CommandLine

/-- The value a flag holds; its kind is the kind of the flag. -/
inductive FlagValue where
  | bool (b : Bool)
  | int (n : Int)
  | real (x : Float)
  | reals (xs : List Float)
  | text (s : String)
  | texts (ss : List String)
  deriving Inhabited

/-- A flag: its names (the first one its own, the others aliases), usage line, initial value,
and whether a command needs it given. -/
structure Flag where
  names : List String
  usage : String
  initial : FlagValue
  required : Bool := false
  deriving Inhabited

/-- The values of a list of flags during and after reading, and the names given so far. -/
structure FlagState where
  values : Array FlagValue
  /-- The names given on the command line, in order. -/
  given : List String
  deriving Inhabited

namespace Flag

/-- Whether a flag is a truth value, which takes no argument. -/
def isBool (f : Flag) : Bool :=
  match f.initial with
  | .bool _ => true
  | _ => false

end Flag

namespace FlagState

/-- The state before reading: every flag at its initial value, no name given. -/
def initial (flags : List Flag) : FlagState := ⟨(flags.map (·.initial)).toArray, []⟩

/-- Records a value of flag `i` given under `name`. -/
def record (st : FlagState) (i : Nat) (name : String) (v : FlagValue) : FlagState :=
  ⟨st.values.set! i v, st.given ++ [name]⟩

/-- Whether flag `i` was given under some name. -/
def wasGiven (st : FlagState) (flags : List Flag) (i : Nat) : Bool :=
  ((flags.getD i default).names.any fun n => st.given.contains n)

end FlagState

/-- The flag a name refers to. -/
def flagIndex (flags : List Flag) (name : String) : Option Nat :=
  flags.findIdx? fun f => f.names.contains name

/-- The text of a reading refusal, as number flags report it. -/
def Refusal.text : Refusal → String
  | .malformed => "parse error"
  | .outOfRange => "value out of range"

/-- The text of a refused list piece: the reader, the piece and the reason. -/
def pieceFailure (piece : String) : Refusal → String
  | .malformed => "strconv.ParseFloat: parsing " ++ Text.quote piece ++ ": invalid syntax"
  | .outOfRange => "strconv.ParseFloat: parsing " ++ Text.quote piece ++ ": value out of range"

/-- Reads the comma-separated pieces of a list of reals, each trimmed of white space. -/
def readPieces : List String → Except String (List Float)
  | [] => .ok []
  | p :: ps =>
    let piece := Text.trimSpace p
    match Literal.readFloat piece with
    | .error r => .error (pieceFailure piece r)
    | .ok x => (readPieces ps).map (x :: ·)

/-- The value of a flag that takes an argument after it is given `v`; `before` says whether
it was given earlier, since a first use replaces a list's initial items. -/
def FlagValue.update (before : Bool) (old : FlagValue) (v : String) : Except String FlagValue :=
  let pieces := (v.toList.splitOn ',').map String.ofList
  match old with
  | .int _ => (Literal.readInt v).map .int |>.mapError Refusal.text
  | .real _ => (Literal.readFloat v).map .real |>.mapError Refusal.text
  | .reals xs => (readPieces pieces).map fun ys => .reals ((if before then xs else []) ++ ys)
  | .text _ => .ok (.text v)
  | .texts ss => .ok (.texts ((if before then ss else []) ++ pieces.map Text.trimSpace))
  | .bool b => .ok (.bool b)

/-- Splits a flag's body at its first `=` after the first character: the name and the value
given with it. -/
def splitValue (body : List Char) : String × Option String :=
  match body with
  | [] => ("", none)
  | c :: rest =>
    match rest.idxOf? '=' with
    | some k => (String.ofList (c :: rest.take k), some (String.ofList (rest.drop (k + 1))))
    | none => (String.ofList body, none)

/-- Reads flags from the front of `args`: the state reached, and either the arguments left
after the flags or the message of the bad argument. -/
def parseFlags (flags : List Flag) : List String → FlagState → FlagState × Except String (List String)
  | [], st => (st, .ok [])
  | a :: rest, st =>
    match a.toList with
    | '-' :: c :: more =>
      if c == '-' && more.isEmpty then (st, .ok rest) else
      let body := if c == '-' then more else c :: more
      match body with
      | [] | '-' :: _ | '=' :: _ => (st, .error ("bad flag syntax: " ++ a))
      | _ =>
        let (name, given) := splitValue body
        match flagIndex flags name with
        | none => (st, .error ("flag provided but not defined: -" ++ name))
        | some i =>
          let flag := flags.getD i default
          let before := st.wasGiven flags i
          let old := st.values.getD i flag.initial
          if flag.isBool then
            match given with
            | none => parseFlags flags rest (st.record i name (.bool true))
            | some v =>
              match Literal.readBool v with
              | some b => parseFlags flags rest (st.record i name (.bool b))
              | none =>
                (st, .error ("invalid boolean value " ++ Text.quote v ++ " for -" ++ name ++ ": parse error"))
          else
            match given with
            | some v =>
              match old.update before v with
              | .ok nv => parseFlags flags rest (st.record i name nv)
              | .error e =>
                (st, .error ("invalid value " ++ Text.quote v ++ " for flag -" ++ name ++ ": " ++ e))
            | none =>
              match rest with
              | [] => (st, .error ("flag needs an argument: -" ++ name))
              | v :: rest' =>
                match old.update before v with
                | .ok nv => parseFlags flags rest' (st.record i name nv)
                | .error e =>
                  (st, .error ("invalid value " ++ Text.quote v ++ " for flag -" ++ name ++ ": " ++ e))
    | _ => (st, .ok (a :: rest))

/-- The refusal of a flag given under two of its names: the second name met among its names,
then the first. -/
def twoForms (flags : List Flag) (st : FlagState) : Option String :=
  flags.findSome? fun f =>
    match f.names.filter st.given.contains with
    | first :: second :: _ => some ("Cannot use two forms of the same flag: " ++ second ++ " " ++ first)
    | _ => none

/-- The long name a missing required flag is reported by: its last name longer than one
character. -/
def Flag.reportedName (f : Flag) : Option String :=
  (f.names.filter fun n => n.length > 1).getLast?

/-- The message for required flags that were not given, if any. -/
def missingRequired (flags : List Flag) (st : FlagState) : Option String :=
  let missing := ((List.range flags.length).filter fun i =>
      (flags.getD i default).required && !st.wasGiven flags i).filterMap fun i =>
    (flags.getD i default).reportedName
  match missing with
  | [] => none
  | [one] => some ("Required flag " ++ Text.quote one ++ " not set")
  | _ => some ("Required flags " ++ Text.quote (", ".intercalate missing) ++ " not set")

end CommandLine

end ArmReach
