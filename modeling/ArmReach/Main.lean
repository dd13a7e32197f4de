import ArmReach.CommandLine.Program
import ArmReach.Workspace.Drawing
/-!
# The `ikreach` executable

Runs the command line on the process arguments and performs its requests for real: text goes
to standard output, files are read and created in the file system, and plots are drawn as SVG
documents. The message of a fatal failure goes to standard error, and the run's status is the
exit status. Work is split into four groups when `--parallel` is zero or less.
-/

namespace ArmReach

namespace CommandLine

/-- The message of a failed file operation on `path`. -/
def fileMessage (verb path : String) (e : IO.Error) : String :=
  match e with
  | .noFileOrDirectory .. => verb ++ " " ++ path ++ ": no such file or directory"
  | .inappropriateType .. => "read " ++ path ++ ": is a directory"
  | .permissionDenied .. => verb ++ " " ++ path ++ ": permission denied"
  | e => verb ++ " " ++ path ++ ": " ++ toString e

/-- Performs the requests of a session. -/
def Session.perform {α : Type} : Session α → IO α
  | .done a => pure a
  | .say t next => do
    IO.print t
    next.perform
  | .read p next => do
    match ← EIO.toBaseIO (IO.FS.readFile p) with
    | .ok text => (next (.ok text)).perform
    | .error e => (next (.error (fileMessage "open" p e))).perform
  | .create p next => do
    match ← EIO.toBaseIO (IO.FS.writeFile p "") with
    | .ok () => (next none).perform
    | .error e => (next (some (fileMessage "open" p e))).perform
  | .draw p plot next => do
    match ← EIO.toBaseIO (IO.FS.writeFile p plot.svg) with
    | .ok () => (next none).perform
    | .error e => (next (some (fileMessage "write" p e))).perform

end CommandLine

end ArmReach

/-- Runs the command line on the process arguments. -/
def main (args : List String) : IO UInt32 := do
  let outcome ← (ArmReach.CommandLine.Program.run 4 args).perform
  if let some message := outcome.fatal then IO.eprintln message
  pure outcome.exit.toUInt32
