/-
# LineShell.Program -- running a program found on the search path

A command that is no builtin names a program. The program is looked up first, then the
redirect targets are opened, the output target before the error target, and then the
program is started in the directory that holds it. Its streams are drained, it is waited
for, and the targets are closed in the opposite order. Where several of these fail, the
last failure counts.

How programs are started, and how the two drains of a program take turns, is left to a
`Launcher`. A launcher is given no input: a program that is started finds nothing to read.
-/

import LineShell.Child
import LineShell.Search
import LineShell.Words

namespace LineShell

/-- **Launcher** — how programs are started: the messages that announce a launch; what
becomes of it in a given tree while the files at some locations are open for writing, and
the tree that the program leaves behind; and the turns that the two drains take before
each is left to go on by itself. -/
structure Launcher where
  announce : Launch → List Message
  start : Tree → List Location → Launch → Except Fault (Child × Tree)
  turns : Launch → List Channel

namespace Program

/-- The program that a command names, looked up on the session's search path. -/
def find (host : Host) (environment : Environment) (command : Text) :
    Action (Option Text) := do
  match Search.program (← Action.tree) host.directory (Search.pathOf host environment)
      command with
  | .error e => throw (.system e)
  | .ok (some path) =>
    Action.log .debug ("Resolved '" ++ command ++ "' to: " ++ path)
    return some path
  | .ok none =>
    if Text.allBlank command then return none
    Action.log .debug ("Command '" ++ command ++ "' not found in PATH")
    return none

/-- The launch of the program at `executable`: it runs in the directory that holds it,
with the session's variables. -/
def launchOf (state : State) (arguments : List Text) (executable : Text) : Launch :=
  ⟨arguments, executable, Path.directoryPart executable, state.environment⟩

/-- A started program is drained into the sinks and waited for. -/
def drain (turns : List Channel) (child : Child) (output error : Sink) :
    Action (Sink × Sink × Except Fault Int) := do
  let (draining, events) := (Draining.start child output error).complete turns
  Action.emitAll events
  Action.emit .reaped
  return (draining.output.sink, draining.error.sink, draining.outcome.map fun _ => child.status)

/-- The program is started and drained; the sinks are handed back in the state they are
left in. -/
def conduct (launcher : Launcher) (launch : Launch) (output error : Sink) :
    Action (Sink × Sink × Except Fault Int) := do
  (launcher.announce launch).forM Action.note
  Action.emit (.launched launch)
  let busy := output.place?.toList ++ error.place?.toList
  match launcher.start (← Action.tree) busy launch with
  | .error fault => return (output, error, .error fault)
  | .ok (child, tree) =>
    Action.onTree (set tree)
    drain (launcher.turns launch) child output error

/-- The message about an exit status. -/
def exitMessage (name : Text) (status : Int) : Message :=
  ⟨if status = 0 then .debug else .info,
    "'" ++ name ++ "' exited with code " ++ Text.ofInt status⟩

/-- The program found for a command line is run with the line's targets. -/
def runFound (host : Host) (launcher : Launcher) (line : CommandLine) (state : State)
    (name : Text) (arguments : List Text) (executable : Text) : Action Int := do
  let output ← Sink.ofTarget host state.directory line.output
  let outcome ← Action.attempt (Sink.ofTarget host state.directory line.error)
  match outcome with
  | .error fault =>
    Action.ofExcept (← output.close (.error fault))
  | .ok error =>
    let launch := launchOf state (name :: arguments) executable
    let (output, error, outcome) ← conduct launcher launch output error
    let outcome ← error.close outcome
    let outcome ← output.close outcome
    let status ← Action.ofExcept outcome
    Action.note (exitMessage name status)
    return status

/-- **Running a program** — the exit status, or nothing if no program was run. A command
without words does nothing. One that names no program is reported on the console, and
its targets are left alone. -/
def run (host : Host) (launcher : Launcher) (line : CommandLine) (state : State) :
    Action (Option Int) := do
  match words line.command with
  | [] => return none
  | name :: arguments =>
    match ← find host state.environment name with
    | none =>
      Action.printLine (line.command ++ ": command not found")
      return none
    | some executable =>
      return some (← runFound host launcher line state name arguments executable)

end Program
end LineShell
