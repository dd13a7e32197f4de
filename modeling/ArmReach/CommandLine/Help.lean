import ArmReach.CommandLine.Flag
import ArmReach.Text.Columns
/-!
# Help screens

An application has a name, a usage line, global flags and commands; a command has a name, a
usage line, an optional usage text and its own flags. Every command also takes the help flag
`--help, -h`, and so does the application.

A flag is described on one line: its names, each with `-` (one letter) or `--` in front and,
for a flag taking a value, a placeholder after it; a tab; the usage line. The placeholder is
`value`, or the first word the usage puts between backquotes (the quotes are dropped). A flag
holding one value adds ` (default: …)` to the usage, unless it is text that starts empty; a list
flag adds `(accepts multiple inputs)` after a second tab.

Help screens list global flags, and the flags of a command that has any of its own, sorted by
their description lines; a command without flags of its own lists the help flag. Columns are
aligned with `Text.alignColumns`.
-/

namespace ArmReach

namespace CommandLine

/-- A command of an application. -/
structure Command where
  name : String
  usage : String
  /-- The usage text shown instead of the generated one, when not empty. -/
  usageText : String := ""
  flags : List Flag

/-- An application with global flags and commands. -/
structure App where
  name : String
  usage : String
  flags : List Flag
  commands : List Command

/-- The help flag every command and the application take. -/
def helpFlag : Flag := ⟨["help", "h"], "show help", .bool false, false⟩

/-- A text without the copies of `c` at its end. -/
def dropTrailing (s : String) (c : Char) : String :=
  String.ofList ((s.toList.reverse.dropWhile (· == c)).reverse)

namespace Flag

/-- The usage line and the placeholder it names between backquotes, the quotes dropped. -/
def unquotedUsage (f : Flag) : String × String :=
  match f.usage.toList.splitOn '\x60' with
  | before :: name :: after :: rest =>
    (String.ofList name,
      String.ofList (before ++ name) ++ "\x60".intercalate ((after :: rest).map String.ofList))
  | _ => ("", f.usage)

/-- Whether a flag takes a value after its name. -/
def takesValue (f : Flag) : Bool := !f.isBool

/-- The names of a flag as the help shows them. -/
def namesText (f : Flag) (placeholder : String) : String :=
  ", ".intercalate (f.names.map fun n =>
    (if n.length == 1 then "-" else "--") ++ n ++ (if placeholder.isEmpty then "" else " " ++ placeholder))

/-- The default a flag shows, if it shows one. -/
def defaultText (f : Flag) : String :=
  match f.initial with
  | .bool b => toString b
  | .int n => toString n
  | .real x => generalText x
  | .text s => if s.isEmpty then "" else Text.quote s
  | .reals xs => ", ".intercalate (xs.map fun x => dropTrailing (dropTrailing (fixedText 6 x) '0') '.')
  | .texts ss => ", ".intercalate (ss.map Text.quote)

/-- The description line of a flag, with its tabs. -/
def line (f : Flag) : String :=
  let (placeholder, usage) := f.unquotedUsage
  let withDefault := fun (d : String) => Text.trimSpace (usage ++ (if d.isEmpty then "" else " (default: " ++ d ++ ")"))
  match f.initial with
  | .reals _ | .texts _ =>
    let shown := withDefault f.defaultText
    let placeholder := if placeholder.isEmpty then "value" else placeholder
    f.namesText placeholder ++ "\t" ++ shown ++
      (if shown.isEmpty then "" else "\t") ++ "(accepts multiple inputs)"
  | _ =>
    let placeholder := if f.takesValue && placeholder.isEmpty then "value" else placeholder
    f.namesText placeholder ++ "\t" ++ withDefault f.defaultText

end Flag

/-- Description lines sorted as text. -/
def sortedLines (flags : List Flag) : List String :=
  (flags.map Flag.line).mergeSort fun a b => decide (a ≤ b)

/-- The flag lines of a help screen section, each followed by a line break and the indent. -/
def flagBlock (lines : List String) : String := String.join (lines.map (· ++ "\n   "))

/-- The command list of the application's help. -/
def commandLines (app : App) : String :=
  String.join (app.commands.map fun c => "\n   " ++ c.name ++ "\t" ++ c.usage)

namespace App

/-- The global flags with the help flag. -/
def allFlags (app : App) : List Flag := app.flags ++ [helpFlag]

/-- The help screen of the application. -/
def help (app : App) : String :=
  Text.alignColumns <|
    "NAME:\n   " ++ app.name ++ (if app.usage.isEmpty then "" else " - " ++ app.usage) ++
    "\n\nUSAGE:\n   " ++ app.name ++ " [global options]" ++
    (if app.commands.isEmpty then "" else " command [command options]") ++ " [arguments...]" ++
    (if app.commands.isEmpty then "" else "\n\nCOMMANDS:" ++ commandLines app) ++
    "\n\nGLOBAL OPTIONS:\n   " ++ flagBlock (sortedLines app.allFlags) ++ "\n"

/-- The help screen for the commands as a group, flags in their given order. -/
def commandsHelp (app : App) : String :=
  Text.alignColumns <|
    "NAME:\n   " ++ app.name ++ " - " ++ app.usage ++
    "\n\nUSAGE:\n   " ++ app.name ++ " command [command options] [arguments...]" ++
    "\n\nCOMMANDS:" ++ commandLines app ++
    "\n\nOPTIONS:\n   " ++ flagBlock (app.allFlags.map Flag.line) ++ "\n"

end App

namespace Command

/-- The flags a command reads: its own and the help flag. -/
def allFlags (c : Command) : List Flag := c.flags ++ [helpFlag]

/-- The help screen of a command of `app`. -/
def help (app : App) (c : Command) : String :=
  let fullName := app.name ++ " " ++ c.name
  let listed := if c.flags.isEmpty then c.allFlags.map Flag.line else sortedLines c.flags
  Text.alignColumns <|
    "NAME:\n   " ++ fullName ++ (if c.usage.isEmpty then "" else " - " ++ c.usage) ++
    "\n\nUSAGE:\n   " ++
    (if c.usageText.isEmpty then fullName ++ " [command options] [arguments...]" else c.usageText) ++
    "\n\nOPTIONS:\n   " ++ flagBlock listed ++ "\n"

end Command

end CommandLine

end ArmReach
