/-
# LineShell.Invocation -- one run of the shell

The shell is started with arguments and an input. It shows its help, its version or its
configuration, or runs a single command line, or reads lines from the input, one after
the other, with a prompt before each. Such a loop ends when a line asks for it, or after
the last line. It alone reads the input; programs that it starts do not.

What a run prints is made from the events of the session at its end. Diagnostics and the
errors of programs go to the error output, all else to the output.
-/

import LineShell.Console
import LineShell.Options
import LineShell.Session

namespace LineShell

/-- **Ending** — how a run ends: the program returns a code, or is left with one. -/
inductive Ending
  | returned (code : Int)
  | exited (code : Int)
  deriving DecidableEq, Repr

/-- The code that a run ends with. -/
def Ending.code : Ending → Int
  | .returned code | .exited code => code

namespace Invocation

/-! ## What is printed -/

/-- What an event puts on the output. -/
def outputOf : Event → Text
  | .printed line => line ++ ['\n']
  | .wrote text => text
  | _ => []

/-- What an event puts on the error output. -/
def errorsOf : Event → Text
  | .complained line => line ++ ['\n']
  | .logged message => message.line
  | _ => []

/-! ## Running lines -/

/-- The line asks to leave the shell. -/
def leaves (line : Text) : Bool := Verb.ofCommand (CommandLine.ofLine line).command = .exit

/-- A single line is run. -/
def runOnce (host : Host) (launcher : Launcher) (line : Text) (state : State) :
    Action Ending := do
  let _ ← Session.runLine host launcher line state
  return if leaves line then .exited 0 else .returned 0

/-- **The loop** over input lines. A launcher is not given what is left of them, so that each
line behind a program is still read. -/
def loop (host : Host) (launcher : Launcher) (prompt : Text) (state : State) :
    List Text → Action Ending
  | [] => do
    Action.emit (.wrote prompt)
    Action.log .debug "End of input, leaving the shell"
    Action.printLine []
    return .returned 0
  | line :: rest => do
    Action.emit (.wrote prompt)
    let state ← Session.runLine host launcher line state
    if leaves line then return .exited 0
    else loop host launcher prompt state rest

/-- The loop with the message that opens it. The whole input is the loop's: programs that it
starts are taken to read none of it. -/
def interact (host : Host) (launcher : Launcher) (prompt : Text) (state : State)
    (input : Text) : Action Ending := do
  Action.log .info
    (programName ++ " " ++ version ++ " started in " ++ state.directory)
  loop host launcher prompt state (Console.inputLines (Text.plainNewlines input))

/-! ## Whole runs -/

/-- **Outcome** — how a run ends, what happened in it, and the directory tree after it. -/
structure Outcome where
  ending : Ending
  events : List Event
  tree : Tree

namespace Outcome

/-- What a run puts on the output. -/
def output (o : Outcome) : Text := o.events.flatMap outputOf

/-- What a run puts on the error output. -/
def errors (o : Outcome) : Text := o.events.flatMap errorsOf

end Outcome

/-- What a run comes to that only shows lines. -/
def showing (ending : Ending) (lines : List Text) (tree : Tree) : Outcome :=
  ⟨ending, lines.map .printed, tree⟩

/-- What a run comes to that only complains. -/
def complaining (ending : Ending) (lines : List Text) (tree : Tree) : Outcome :=
  ⟨ending, lines.map .complained, tree⟩

/-- What a session comes to at a log level. A fault that no line has dealt with ends the
run. -/
def conducting (limit : Level) (session : Action Ending) (tree : Tree) : Outcome :=
  match session.perform ⟨tree, limit, []⟩ with
  | (.ok ending, w) => ⟨ending, w.events, w.tree⟩
  | (.error fault, w) =>
    ⟨.returned 1, w.events ++ [.complained ("Error: " ++ fault.message)], w.tree⟩

/-- The level that the options choose, if they do and the name is one. An empty name
chooses none. -/
def chosenLevel (configured : Level) : Option Text → Except Text Level
  | none | some [] => .ok configured
  | some name =>
    match Level.ofName? name with
    | some level => .ok level
    | none => .error name

/-- What is said when a command line is to be run and its text was taken away. -/
def missingLineMessage : Text := "\x27list\x27 object has no attribute \x27strip\x27"

/-- The run that the choices ask for. -/
def runChoices (host : Host) (launcher : Launcher) (settings : Settings)
    (choices : Options.Choices) (input : Text) (tree : Tree) : Outcome :=
  match chosenLevel settings.level.1 choices.level with
  | .error name =>
    complaining (.returned 1) ["Error: " ++ Level.invalidNameMessage name] tree
  | .ok level =>
    if choices.showSettings then
      showing (.returned 0) (Summary.page ⟨version, level, settings.prompt⟩) tree
    else
      let state := State.ofHost host
      match choices.command with
      | some (some line) => conducting level (runOnce host launcher line state) tree
      | some none => complaining (.returned 1) ["Error: " ++ missingLineMessage] tree
      | none => conducting level (interact host launcher settings.prompt state input) tree

/-- **A run of the shell.** The settings are loaded first, and an invalid log level in
them is reported; then the arguments are read. -/
def run (host : Host) (launcher : Launcher) (arguments : List Text) (input : Text)
    (tree : Tree) : Outcome :=
  let settings := Settings.ofVariables host.environment
  let (level, notes) := settings.level
  let outcome := match Options.read arguments with
    | .help => showing (.exited 0) Options.helpLines tree
    | .version => showing (.exited 0) [programName ++ " " ++ version] tree
    | .misuse message => complaining (.exited 2) (Options.misuseLines message) tree
    | .run choices => runChoices host launcher settings choices input tree
  { outcome with
    events := (notes.filter (level.admits ·.level)).map .logged ++ outcome.events }

end Invocation
end LineShell
