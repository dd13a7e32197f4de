import ArmReach.Logging.Fields
import ArmReach.Logging.Pattern
import ArmReach.Parallel.Groups
/-!
# Loggers and their registry

A logger has a name, a level and a list of appenders, the outputs its entries go to. The
registry holds every logger made so far, the loggers registered under their names, the level
patterns in force, and which logger is the global one; at the start it holds the global logger
`global`, at info level, writing to standard output.

* A message is written only at or above its logger's level. A debug message sent for a request
  whose context carries a debug key (`Context.enableDebugMode`: the key given, or six random
  letters for an empty one) is written whatever the level, with the field `traceKey` added.
* A logger with a name is registered under it when made, replacing an earlier logger of that
  name, and the patterns in force whose regular expression matches the name set its level,
  later patterns last, whether validation accepted them or not.
* A sublogger of `a` is named `a.sub` (just `sub` under an unnamed logger), starts at its
  parent's level, shares its parent's appenders as they are, and is registered.
* Setting the patterns stores them for later registrations and sets the level of every
  registered logger that some valid pattern matches, the last such pattern winning. An invalid
  pattern is reported as a warning and skipped; an invalid level name stops the update before
  any level changes.

Appender lists share storage the way growable arrays do: a sublogger's list is a view of the
first appenders of its parent's storage. Adding an appender writes it into the storage when the
storage has room beyond the list, where a logger sharing that storage with a longer list sees
it replace one of its own; otherwise the list moves to new storage of twice the room.
-/

namespace ArmReach

namespace Logging

/-! ### Request contexts -/

/-- The letters random debug keys are made of. -/
def alphaLetters : List Char := "abcdefghijklmnopqrstuvwxyzABCDEFGHIJKLMNOPQRSTUVWXYZ".toList

/-- The random text of six letters drawn from the process's random source, `picks` being the
six draws. -/
def randomAlphaString (picks : Fin 6 → Fin 52) : String :=
  String.ofList (List.ofFn fun i => alphaLetters.getD (picks i) 'a')

/-- What a request carries for logging: the debug key stored in it, if any. -/
structure Context where
  debugKey : Option String

namespace Context

/-- The context of a request that carries nothing. -/
def background : Context := ⟨none⟩

/-- Turns debug logging on for a request: the context carries the key, or for an empty key six
random letters (the draws `picks`). -/
def enableDebugMode (ctx : Context) (key : String) (picks : Fin 6 → Fin 52) : Context :=
  { ctx with debugKey := some (if key.isEmpty then randomAlphaString picks else key) }

/-- The debug key a context carries, or the empty text. -/
def name (ctx : Context) : String := ctx.debugKey.getD ""

/-- Whether debug logging is on for a request: its context carries a key that is not empty. -/
def isDebugMode (ctx : Context) : Bool := ctx.name != ""

end Context

/-! ### Loggers -/

/-- Where an appender sends entries. -/
inductive Appender where
  /-- Keeps the entries for the caller. -/
  | capture
  /-- Writes text lines to the console stream. -/
  | console
  /-- Writes text lines to the process's standard output. -/
  | standardOutput
  /-- Writes text lines to a test's log. -/
  | testLog
  /-- Keeps the entries in an observer's record. -/
  | observer (id : Nat)
  /-- Fails to write and to flush. -/
  | failing
  deriving DecidableEq, Inhabited

/-- A logger's appenders: the first `length` of the shared storage `store`, which has room for
`room` before it moves. -/
structure AppenderList where
  store : Nat
  length : Nat
  room : Nat
  deriving Inhabited

/-- A logger. -/
structure Logger where
  name : String
  level : Level
  appenders : AppenderList
  deriving Inhabited

/-- A text line written by an appender, by the kind of appender. -/
inductive Line where
  | console (text : String)
  | standardOutput (text : String)
  | testLog (text : String)

/-- The text of an entry on one line: time, level in capitals, logger name, caller, message and,
when there are fields, the fields, separated by tabs. -/
def Entry.line (time caller : String) (e : Entry) : String :=
  "\t".intercalate ([time, e.level.name.toUpper, e.logger, caller, e.message] ++
    (if e.fields.isEmpty then [] else [fieldsText e.fields]))

/-- All loggers, their storage, names and outputs. -/
structure Registry where
  loggers : Array Logger
  stores : Array (Array Appender)
  /-- Registered names and their loggers, in registration order. -/
  names : List (String × Nat)
  patterns : List PatternLevel
  global : Nat
  /-- The record of each observer. -/
  observed : Array (Array Entry)
  /-- The entries kept by capturing appenders. -/
  captured : Array Entry
  /-- The lines written by text appenders. -/
  lines : Array Line
  /-- What the time and the caller are written as in text lines. -/
  time : String
  caller : String

namespace Registry

/-- The room an appender list moves to when it is full. -/
def grownRoom (room : Nat) : Nat := max 1 (2 * room)

/-- The appenders of a logger. -/
def appendersOf (r : Registry) (i : Nat) : List Appender :=
  let l := (r.loggers.getD i default).appenders
  ((r.stores.getD l.store #[]).toList.take l.length)

/-- The index of the logger registered under a name. -/
def lookup (r : Registry) (name : String) : Option Nat :=
  (r.names.find? (·.1 == name)).map (·.2)

/-- The registered names, sorted. -/
def registeredNames (r : Registry) : List String :=
  (r.names.map (·.1)).mergeSort (fun a b => decide (a ≤ b))

/-- Sets a logger's level. -/
def setLevel (r : Registry) (i : Nat) (l : Level) : Registry :=
  { r with loggers := r.loggers.modify i fun lg => { lg with level := l } }

/-- A logger's level. -/
def levelOf (r : Registry) (i : Nat) : Level := (r.loggers.getD i default).level

/-- Registers logger `i` under `name`, then lets the stored patterns that match set its level. -/
def register (r : Registry) (name : String) (i : Nat) : Registry :=
  let r := { r with names := r.names.filter (fun (m : String × Nat) => m.1 != name) ++ [(name, i)] }
  r.patterns.foldl (fun (r : Registry) (p : PatternLevel) =>
    if Pattern.matchesName p.pattern name then
      match Level.parse p.level with
      | .ok l => r.setLevel i l
      | .error _ => r
    else r) r

/-- Adds a logger with its own appender storage; named loggers are registered. The result is
the registry and the new logger's index. -/
def make (r : Registry) (name : String) (level : Level) (appenders : List Appender) :
    Registry × Nat :=
  let i := r.loggers.size
  let store := r.stores.size
  let lg : Logger := ⟨name, level, ⟨store, appenders.length, appenders.length⟩⟩
  let r := { r with loggers := r.loggers.push lg, stores := r.stores.push appenders.toArray }
  ((if name.isEmpty then r else r.register name i), i)

/-- Adds an appender to a logger's list. -/
def addAppender (r : Registry) (i : Nat) (a : Appender) : Registry :=
  let lg := r.loggers.getD i default
  let l := lg.appenders
  if l.length < l.room then
    let st := r.stores.getD l.store #[]
    let st := if l.length < st.size then st.set! l.length a else st.push a
    { r with stores := r.stores.set! l.store st,
             loggers := r.loggers.set! i { lg with appenders := { l with length := l.length + 1 } } }
  else
    let st := ((r.stores.getD l.store #[]).extract 0 l.length).push a
    { r with stores := r.stores.push st,
             loggers := r.loggers.set! i
               { lg with appenders := ⟨r.stores.size, l.length + 1, grownRoom l.room⟩ } }

/-- The registry at the start: the global logger, at info level, writing to standard output. -/
def initial (time caller : String) : Registry :=
  let r : Registry := ⟨#[], #[], [], [], 0, #[], #[], #[], time, caller⟩
  (r.make "global" .info [.standardOutput]).1

/-- A blank logger: debug level, no appenders. -/
def newBlank (r : Registry) (name : String) : Registry × Nat := r.make name .debug []

/-- A logger writing to standard output, at debug or info level. -/
def newStandard (r : Registry) (name : String) (debug : Bool) : Registry × Nat :=
  r.make name (if debug then .debug else .info) [.standardOutput]

/-- An unnamed, unregistered debug logger writing to a test's log and to a new observer. -/
def newTest (r : Registry) : Registry × Nat × Nat :=
  let i := r.loggers.size
  let obs := r.observed.size
  let lg : Logger := ⟨"", .debug, ⟨r.stores.size, 0, 0⟩⟩
  let r := { r with loggers := r.loggers.push lg, stores := r.stores.push #[],
                    observed := r.observed.push #[] }
  ((r.addAppender i .testLog).addAppender i (.observer obs), i, obs)

/-- A sublogger of logger `i`. -/
def sublogger (r : Registry) (i : Nat) (sub : String) : Registry × Nat :=
  let parent := r.loggers.getD i default
  let name := if parent.name.isEmpty then sub else parent.name ++ "." ++ sub
  let j := r.loggers.size
  let r := { r with loggers := r.loggers.push ⟨name, parent.level, parent.appenders⟩ }
  (r.register name j, j)

/-- Sends an entry to one appender. -/
def deliver (r : Registry) (e : Entry) : Appender → Registry
  | .capture => { r with captured := r.captured.push e }
  | .console => { r with lines := r.lines.push (.console (e.line r.time r.caller)) }
  | .standardOutput => { r with lines := r.lines.push (.standardOutput (e.line r.time r.caller)) }
  | .testLog => { r with lines := r.lines.push (.testLog (e.line r.time r.caller)) }
  | .observer k => { r with observed := r.observed.modify k (·.push e) }
  | .failing => r

/-- Writes an entry through all appenders of logger `i`, in order. -/
def write (r : Registry) (i : Nat) (level : Level) (message : String) (kv : List Value) :
    Registry :=
  let e : Entry := ⟨level, (r.loggers.getD i default).name, message, Value.pairs kv⟩
  (r.appendersOf i).foldl (fun r a => r.deliver e a) r

/-- Logs a message at a level through logger `i`, if its level admits it. -/
def log (r : Registry) (i : Nat) (level : Level) (message : String) (kv : List Value) : Registry :=
  if (r.levelOf i).admits level then r.write i level message kv else r

/-- Logs a debug message for a request: when the request's context carries a debug key, it
is written whatever the level, with the key added as `traceKey`; otherwise it is a plain debug
message. -/
def traceLog (r : Registry) (i : Nat) (ctx : Context) (message : String)
    (kv : List Value) : Registry :=
  let key := ctx.name
  if key != "" then r.write i .debug message (kv ++ [.text "traceKey", .text key])
  else r.log i .debug message kv

/-- Flushes the appenders of logger `i`: the combined failure of those that cannot. -/
def sync (r : Registry) (i : Nat) : Option Failure :=
  Parallel.combine ((r.appendersOf i).filterMap fun
    | .failing => some (.plain "appender cannot sync")
    | _ => none)

/-- Sets the level of the logger registered under a name. -/
def updateLevel (r : Registry) (name : String) (l : Level) : Except Failure Registry :=
  match r.lookup name with
  | some i => .ok (r.setLevel i l)
  | none => .error (.plain ("logger named " ++ name ++ " not recognized"))

/-- The levels the patterns give to the registered names, later patterns winning; warnings
for invalid patterns go to `warn`. -/
def patternLevels (r : Registry) (warn : Journal) :
    List PatternLevel → List (String × Level) → Except (Failure × Journal) (List (String × Level) × Journal)
  | [], acc => .ok (acc, warn)
  | p :: ps, acc =>
    if !Pattern.isValid p.pattern then
      patternLevels r (warn.write .warn "failed to validate a pattern" [("pattern", .text p.pattern)]) ps acc
    else match Level.parse p.level with
      | .error e => .error (.plain e, warn)
      | .ok l =>
        -- a valid pattern always compiles, so the update never meets RE2's refusal
        let hits := r.registeredNames.filter (Pattern.matchesName p.pattern)
        patternLevels r warn ps (hits.foldl (fun acc n => acc.filter (·.1 != n) ++ [(n, l)]) acc)

/-- Stores level patterns and applies them to the registered loggers. -/
def updateConfig (r : Registry) (ps : List PatternLevel) (warn : Journal) :
    Registry × Journal × Option Failure :=
  let r := { r with patterns := ps }
  match r.patternLevels warn ps [] with
  | .error (f, warn) => (r, warn, some f)
  | .ok (levels, warn) =>
    (levels.foldl (fun r (n, l) => match r.lookup n with
      | some i => r.setLevel i l
      | none => r) r, warn, none)

/-- Makes logger `i` the global logger. -/
def replaceGlobal (r : Registry) (i : Nat) : Registry := { r with global := i }

/-- Forgets what appenders captured and wrote. -/
def clearOutput (r : Registry) : Registry := { r with captured := #[], lines := #[] }

end Registry

end Logging

end ArmReach
