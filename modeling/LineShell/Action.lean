/-
# LineShell.Action -- what a session does

Running a command has effects that an observer can see: lines printed, messages, an exit
asked for, programs started, stopped and waited for, files opened and closed. They are recorded as
a list of events, in order, beside the directory tree, and both are kept when a command
fails. A message is an event only if the log level admits it. Where lines go is decided
by whoever reads the events.
-/

import LineShell.Log
import LineShell.State
import LineShell.Tree.Write

namespace LineShell

/-- **Launch** — how a program is started: its arguments, the first being its name as
typed, its path, its working directory and its variables. -/
structure Launch where
  arguments : List Text
  executable : Text
  directory : Text
  environment : Environment
  deriving DecidableEq, Repr

/-- **Event** — one visible effect of a session. -/
inductive Event
  | printed (line : Text)
  | complained (line : Text)
  | wrote (text : Text)
  | exited (code : Int)
  | logged (message : Message)
  | launched (launch : Launch)
  | killed
  | reaped
  | opened (handle : Handle)
  | closed (handle : Handle)
  deriving DecidableEq, Repr

/-- **World** — the directory tree, the log level in force, and what has happened so
far. -/
structure World where
  tree : Tree
  limit : Level
  events : List Event
  deriving Repr

/-- **Action** — an operation that may change the world and may fail; a failure keeps
what was done before it. -/
abbrev Action (α : Type) := ExceptT Fault (StateM World) α

namespace Action

/-- Something visible happens. -/
def emit (event : Event) : Action Unit :=
  modify fun w => { w with events := w.events ++ [event] }

/-- Several things happen in turn. -/
def emitAll (events : List Event) : Action Unit :=
  modify fun w => { w with events := w.events ++ events }

/-- A line for the user. -/
def printLine (line : Text) : Action Unit := emit (.printed line)

/-- A diagnostic message, unless the log level is less verbose. -/
def note (message : Message) : Action Unit := do
  if (← get).limit.admits message.level then emit (.logged message)

/-- A diagnostic message made of a level and a text. -/
def log (level : Level) (text : Text) : Action Unit := note ⟨level, text⟩

/-- The directory tree as it is now. -/
def tree : Action Tree := return (← get).tree

/-- An operation on the tree alone. -/
def onTree {α : Type} (action : TreeAction α) : Action α := do
  let w ← get
  let (result, tree) := action.run.run w.tree
  set { w with tree := tree }
  match result with
  | .ok value => pure value
  | .error fault => throw fault

/-- **Running** an action: its result and the world after it. -/
def perform {α : Type} (action : Action α) (w : World) : Except Fault α × World :=
  action.run.run w

/-- An action whose failure is handed out as a value. -/
def attempt {α : Type} (action : Action α) : Action (Except Fault α) :=
  tryCatch (return .ok (← action)) fun fault => return .error fault

/-- The value of a computation that may have failed. -/
def ofExcept {α : Type} : Except Fault α → Action α
  | .ok value => pure value
  | .error fault => throw fault

end Action
end LineShell
