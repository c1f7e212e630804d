/-
# LineShell.Session -- one line after the other

A session is a state and a world. A line is split into its command and its redirect
clause and carried out. A system error while doing so is reported on the console and
leaves the state as it was; text that the system cannot take at all is a fault that the
line passes on. Which diagnostics are printed depends on the log level of the session.

Besides whole lines, a session takes split command lines, and runs programs without
looking for builtins.
-/

import LineShell.Builtin

namespace LineShell
namespace Session

/-- The line split at its redirect clause, with a message if it has one. -/
def split (line : Text) : Action CommandLine := do
  let parsed := CommandLine.ofLine line
  if parsed.isRedirected then
    Action.log .debug
      ("split_redirection: " ++ Text.quoted line ++ " -> " ++ parsed.shown)
  return parsed

/-- What happens when a command ends in a fault. -/
def recover (line : CommandLine) (state : State) : Fault → Action State
  | .system error => do
    Action.log .warning
      ("Command failed: " ++ Text.quoted line.command ++ ": " ++ error.shown)
    Action.printLine ("Error executing command: " ++ error.message)
    return state
  | fault => throw fault

/-- **Running a line** — the state after it. -/
def runLine (host : Host) (launcher : Launcher) (line : Text) (state : State) :
    Action State := do
  let parsed ← split line
  if parsed.command = [] then return state
  tryCatch (Builtin.dispatch host launcher parsed state) (recover parsed state)

/-! ## Sessions of several steps -/

/-- **Step** — what a session can be asked to do. -/
inductive Step
  | line (text : Text)
  | dispatch (line : CommandLine)
  | execute (line : CommandLine)
  deriving DecidableEq, Repr

/-- **Report** — what a step did: the state after it, the exit status if the step ran a
program by itself, and the fault that ended it, if any. -/
structure Report where
  state : State
  status : Option (Option Int)
  fault : Option Fault
  deriving DecidableEq, Repr

/-- One step. A step that ends in a fault leaves the state as it was. -/
def step (host : Host) (launcher : Launcher) (state : State) (s : Step) (w : World) :
    Report × World :=
  match s with
  | .line text => settle ((runLine host launcher text state).perform w)
  | .dispatch line => settle ((Builtin.dispatch host launcher line state).perform w)
  | .execute line =>
    match (Program.run host launcher line state).perform w with
    | (.ok status, w) => (⟨state, some status, none⟩, w)
    | (.error fault, w) => (⟨state, none, some fault⟩, w)
where
  settle : Except Fault State × World → Report × World
    | (.ok state, w) => (⟨state, none, none⟩, w)
    | (.error fault, w) => (⟨state, none, some fault⟩, w)

/-- The report of a step, the events of that step, and the tree after it. -/
structure Answer where
  report : Report
  events : List Event
  tree : Tree

/-- **A whole session** — the answers to its steps, in order, at a log level. -/
def run (host : Host) (launcher : Launcher) (limit : Level) (state : State) (tree : Tree) :
    List Step → List Answer
  | [] => []
  | s :: rest =>
    let (report, w) := step host launcher state s ⟨tree, limit, []⟩
    ⟨report, w.events, w.tree⟩ :: run host launcher limit report.state w.tree rest

end Session
end LineShell
