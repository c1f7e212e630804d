/-
# LineShell.Builtin -- the commands that the shell carries out itself

Five names are builtins. A command is recognised as one by its text alone, before
quoting is considered: `exit 0` and `pwd` as they stand, `echo` alone or before a space,
`type` and `cd` before a space. Everything else is left to the programs.

Builtins write lines to the console or to the output target. They have no errors to
redirect, so an error target is made or emptied and stays empty. Changing the directory
writes nothing to its targets, and alone of all commands it changes the state.
-/

import LineShell.Program

namespace LineShell

/-- **Verb** — what a command asks for. -/
inductive Verb
  | exit
  | printDirectory
  | echo
  | describe (name : Text)
  | changeDirectory (path : Text)
  | program
  deriving DecidableEq, Repr

/-- The names of the builtins. -/
def builtinNames : List Text := ["exit", "echo", "type", "pwd", "cd"]

def isBuiltin (name : Text) : Bool := builtinNames.contains name

/-- The verb of a command. -/
def Verb.ofCommand (command : Text) : Verb :=
  if command = "exit 0" then .exit
  else if command = "pwd" then .printDirectory
  else if command = "echo" ∨ ("echo " : Text).isPrefixOf command then .echo
  else match ("type " : Text).isPrefixOf? command with
    | some name => .describe (Text.trim name)
    | none =>
      match ("cd " : Text).isPrefixOf? command with
      | some path => .changeDirectory (Text.trim path)
      | none => .program

namespace Builtin

/-- The words behind the first one, separated by single spaces. -/
def echoText (command : Text) : Text := [' '].intercalate (words command).tail

/-- A line of a builtin goes to the output target or to the console. -/
def deliver (host : Host) (line : CommandLine) (state : State) (text : Text) :
    Action Unit := do
  match line.output with
  | some target => Target.fill host target state.directory (text ++ ['\n'])
  | none =>
    match line.error with
    | some target => Target.touch host target state.directory
    | none => pure ()
    Action.printLine text

/-- Both targets are made or emptied. -/
def touchTargets (host : Host) (line : CommandLine) (state : State) : Action Unit := do
  match line.output with
  | some target => Target.touch host target state.directory
  | none => pure ()
  match line.error with
  | some target => Target.touch host target state.directory
  | none => pure ()

/-- What a name stands for as a command. -/
def description (host : Host) (state : State) (name : Text) : Action Text := do
  if isBuiltin name then return name ++ " is a shell builtin"
  match ← Program.find host state.environment name with
  | some path => return name ++ " is " ++ path
  | none => return name ++ ": not found"

/-- The state after changing to a directory; if there is none, the user is told and the
state stays. -/
def changeDirectory (host : Host) (path : Text) (state : State) : Action State := do
  let wanted := expandHome (state.home host) path
  match Search.directory (← Action.tree) host.directory wanted state.directory with
  | none =>
    Action.log .debug ("Not a directory: " ++ Path.join state.directory wanted)
    Action.printLine ("cd: " ++ path ++ ": No such file or directory")
    return state
  | some directory =>
    Action.log .debug ("cd: " ++ state.directory ++ " -> " ++ directory)
    return state.inDirectory directory

/-- **Dispatching** — a command line is carried out; the result is the state after it. -/
def dispatch (host : Host) (launcher : Launcher) (line : CommandLine) (state : State) :
    Action State := do
  match Verb.ofCommand line.command with
  | .exit =>
    Action.log .debug "exit 0 requested"
    Action.emit (.exited 0)
    return state
  | .printDirectory =>
    deliver host line state state.directory
    return state
  | .echo =>
    deliver host line state (echoText line.command)
    return state
  | .describe name =>
    let text ← description host state name
    deliver host line state text
    return state
  | .changeDirectory path =>
    touchTargets host line state
    changeDirectory host path state
  | .program =>
    let _ ← Program.run host launcher line state
    return state

end Builtin
end LineShell
