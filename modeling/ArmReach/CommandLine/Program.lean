import ArmReach.CommandLine.Commands
import ArmReach.CommandLine.Help
/-!
# The `ikreach` command line

`Program.run` is the whole command line: the global flags are read, then the command named by
the first argument left, with its own flags, runs. What is written to standard output goes
through the session; the outcome is the exit status and the message of a fatal failure.

* A bad global flag prints `Incorrect Usage. <why>`, a blank line and the help, and fails; a
  global flag given under two names prints the message and the help, and fails. A bad command
  flag prints `Incorrect Usage: <why>`, a blank line and the command's help, and fails.
* `--help` (or `-h`) prints the help of the application or of the command and succeeds; so does
  a run without a command. A command missing required flags prints its help and fails with
  `Required flag "…" not set`.
* An unknown command ends the run with status 3 and no output; an empty command name prints
  the help of the commands as a group.
* A command that fails ends the run with status 1 and the failure's message.
-/

namespace ArmReach

namespace CommandLine

/-- The flags of `solve` and `reachable` that shape the goal and the start. -/
def goalFlags : List Flag :=
  [⟨["orientation"], "goal orientation as roll,pitch,yaw in degrees", .reals [], false⟩,
   ⟨["start"], "starting joint positions in degrees, one per joint", .reals [], false⟩,
   ⟨["position-only"], "only match the goal position, ignoring orientation", .bool false, false⟩]

/-- The application: its global flags and commands. -/
def reachApp : App where
  name := "ikreach"
  usage := "solve inverse kinematics and map the reachable workspace of an arm"
  flags :=
    [⟨["debug", "vvv"], "enable debug logging", .bool false, false⟩,
     ⟨["log-level"], "set the level of loggers matching a pattern, e.g. ikreach.workspace=debug",
       .texts [], false⟩,
     ⟨["model"], "load the arm kinematics from JSON \x60FILE\x60 instead of the bundled six axis arm",
       .text "", false⟩,
     ⟨["seed"], "seed for random restarts", .int 0, false⟩,
     ⟨["restarts"], "number of solve attempts per goal, including the first", .int 10, false⟩,
     ⟨["iterations"], "iterations per solve attempt (0 means the solver default)", .int 0, false⟩]
  commands :=
    [{ name := "solve", usage := "solve for the joint positions reaching a pose",
       usageText := "ikreach solve --point x,y,z [--orientation r,p,y] [--start j1,j2,...]",
       flags := ⟨["point"], "goal position as x,y,z in meters", .reals [], true⟩ :: goalFlags },
     { name := "reachable", usage := "sample a box and report which points the arm can reach",
       usageText := "ikreach reachable --min x,y,z --max x,y,z --step s " ++
         "[--parallel n] [--orientation r,p,y] [--start j1,j2,...] [--json] [--plot FILE]",
       flags :=
         [⟨["min"], "lower corner of the box as x,y,z in meters (inclusive)", .reals [], true⟩,
          ⟨["max"], "upper corner of the box as x,y,z in meters (exclusive)", .reals [], true⟩,
          ⟨["step"], "grid spacing in meters", .real 0, true⟩,
          ⟨["parallel"], "number of parallel workers (0 means one per available core)", .int 0, false⟩,
          ⟨["json"], "print every reached point as a JSON object instead of a summary", .bool false,
            false⟩,
          ⟨["plot"], "also save top and side scatter views of the reached points to \x60FILE\x60 " ++
            "(.png, .svg, ...)", .text "", false⟩] ++ goalFlags },
     { name := "joints", usage := "print the joints and limits of the arm model", flags := [] }]

/-- How a run ends: its exit status and the message of a fatal failure. -/
structure Outcome where
  exit : Nat
  fatal : Option String
  deriving DecidableEq, Repr

namespace Program

/-- A successful end. -/
def success : Outcome := ⟨0, none⟩

/-- A fatal failure: status 1 with its message. -/
def fatal (message : String) : Outcome := ⟨1, some message⟩

/-- Whether the help flag is set in a state of `flags`. -/
def helpAsked (flags : List Flag) (st : FlagState) : Bool :=
  match flagIndex flags "help" with
  | some i =>
    match st.values[i]? with
    | some (.bool b) => b
    | _ => false
  | none => false

/-- What a command does once its flags are read; `factor` is the number of work groups used
when `--parallel` is zero or less. -/
def action (factor : Nat) (name : String) (c : Context) : Action Unit :=
  match name with
  | "solve" => solveCommand c
  | "reachable" => reachableCommand factor c
  | "joints" => jointsCommand c
  | _ => pure ()

/-- Runs a command on the arguments after its name, in the context of the global flags. -/
def runCommand (factor : Nat) (app : App) (cmd : Command) (globalState : FlagState)
    (args : List String) : Session Outcome := do
  let flags := cmd.allFlags
  let (st, read) := parseFlags flags args (FlagState.initial flags)
  let read : Except String (List String) := match read with
    | .ok rest =>
      match twoForms flags st with
      | some e => .error e
      | none => .ok rest
    | .error e => .error e
  match read with
  | .error e =>
    Session.print ("Incorrect Usage: " ++ e ++ "\n\n" ++ cmd.help app)
    pure (fatal e)
  | .ok _ =>
    if helpAsked flags st then
      Session.print (cmd.help app)
      pure success
    else
      match missingRequired flags st with
      | some e =>
        Session.print (cmd.help app)
        pure (fatal e)
      | none =>
        let c : Context := ⟨flags, st, app.allFlags, globalState⟩
        match ← (action factor cmd.name c).run with
        | .ok () => pure success
        | .error f => pure (fatal f.message)

/-- Runs the command line on its arguments (the program name excluded). -/
def run (factor : Nat) (args : List String) : Session Outcome := do
  let app := reachApp
  let flags := app.allFlags
  let (st, read) := parseFlags flags args (FlagState.initial flags)
  match twoForms flags st, read with
  | some e, _ =>
    Session.print (e ++ "\n" ++ app.help)
    pure (fatal e)
  | none, .error e =>
    Session.print ("Incorrect Usage. " ++ e ++ "\n\n" ++ app.help)
    pure (fatal e)
  | none, .ok rest =>
    if helpAsked flags st then
      Session.print app.help
      pure success
    else
      match rest with
      | [] =>
        Session.print app.help
        pure success
      | name :: more =>
        match app.commands.find? (·.name == name) with
        | some cmd => runCommand factor app cmd st more
        | none =>
          if name.isEmpty then
            Session.print app.commandsHelp
            pure success
          else pure ⟨3, none⟩

end Program

end CommandLine

end ArmReach
