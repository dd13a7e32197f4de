import ArmReach.Workspace.Plot
/-!
# Sessions: a run as the requests it makes

A command-line run writes to standard output, reads files, and creates and draws plot files.
`Session α` is such a run ending in a value of type `α`, written as a tree of requests: each
request says what it needs, and the rest of the run is a function of the answer. A run is so a
plain value. `Session.answer` runs it against a model of its surroundings, where every request
has a fixed answer; an outer program performs the requests for real.

Sessions form a monad: `bind` grafts a continuation onto every leaf.
-/

namespace ArmReach

namespace CommandLine

/-- A run that ends in a value of type `α`, as the requests it makes. -/
inductive Session (α : Type) where
  /-- The run is over. -/
  | done (a : α)
  /-- Writes text to standard output, then goes on. -/
  | say (text : String) (next : Session α)
  /-- Reads a file, then goes on with its text or why it cannot be read. -/
  | read (path : String) (next : Except String String → Session α)
  /-- Creates an empty file, then goes on with why it cannot be created, if it cannot. -/
  | create (path : String) (next : Option String → Session α)
  /-- Draws a plot into a created file, then goes on with why it failed, if it did. -/
  | draw (path : String) (plot : Workspace.Plot) (next : Option String → Session α)

/-- How the surroundings of a run answer its requests. -/
structure Surroundings where
  read : String → Except String String
  create : String → Option String
  draw : String → Workspace.Plot → Option String

namespace Session

variable {α β : Type}

/-- Continues a run with a run depending on its value. -/
def bind : Session α → (α → Session β) → Session β
  | .done a, f => f a
  | .say t next, f => .say t (next.bind f)
  | .read p next, f => .read p fun r => (next r).bind f
  | .create p next, f => .create p fun r => (next r).bind f
  | .draw p plot next, f => .draw p plot fun r => (next r).bind f

instance : Monad Session where
  pure := .done
  bind := bind

/-- Writes text to standard output. -/
def print (text : String) : Session Unit := .say text (.done ())

/-- Reads a file. -/
def readFile (path : String) : Session (Except String String) := .read path .done

/-- Creates an empty file. -/
def createFile (path : String) : Session (Option String) := .create path .done

/-- Draws a plot into a created file. -/
def drawPlot (path : String) (plot : Workspace.Plot) : Session (Option String) :=
  .draw path plot .done

/-- Runs a session against its surroundings: what it wrote to standard output and its value. -/
def answer (env : Surroundings) : Session α → String × α
  | .done a => ("", a)
  | .say t next => let (rest, a) := next.answer env; (t ++ rest, a)
  | .read p next => (next (env.read p)).answer env
  | .create p next => (next (env.create p)).answer env
  | .draw p plot next => (next (env.draw p plot)).answer env

end Session

end CommandLine

end ArmReach
