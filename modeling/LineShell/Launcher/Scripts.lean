/-
# LineShell.Launcher.Scripts -- programs that are scripts in the tree

An executable file of the tree is a program if its first line names an interpreter. What
is started in the end is the interpreter of scripts. A file that is open for writing
cannot be started.

The interpreter is started with arguments, variables and a directory. What it writes to its
output and its errors is collected, and the tree is as the script and the processes that it
has started leave it. The output of a script is bytes. It is read as text with malformed parts
replaced, and every line ending in it counts as a line feed.
-/

import LineShell.Launcher.Table
import LineShell.Script.Run.Commands
import LineShell.Script.Schedule

namespace LineShell

/-! ## Running a script -/

namespace Script

/-- **Result** — what comes of a run: the bytes written to the output and the errors, the
ending, and the tree. -/
structure Result where
  output : Text
  errors : Text
  ending : Ending
  tree : Tree

/-- The room for nested commands, those included that other commands start. -/
def nestingRoom : Nat := 8388608

/-- How often processes may take turns. -/
def turnLimit : Nat := 1000000000000

/-- **A run** of the interpreter of scripts, while the files at some locations are open for
writing. -/
def run (t : Tree) (busy : List Location) (environment : Environment) (directory : Location)
    (arguments : List Text) : Result :=
  let runner := Step.runWithin nestingRoom
  let whole : Step Ending := do
    Step.finish runner (← Step.attempt (Step.interpret runner (arguments.map bytesOf)))
  let start := Schedule.start (Machine.start t busy environment directory)
    (whole .over fun _ => .over (.exited 2))
  let m := (start.drive turnLimit).machine
  let ending := (m.ended.find? (·.number = firstNumber)).map (·.ending)
  ⟨m.collected 1, m.collected 2, ending.getD (.exited 2), m.finalTree⟩

end Script

/-! ## Launching -/

namespace Launcher

/-- The stream of what a script has written. -/
def streamOf (bytes : Text) : Stream :=
  .ofText (Text.plainNewlines (Script.textOf bytes)) none

/-- The exit status of a program; a signal counts as a negative one. -/
def exitStatus : Script.Ending → Int
  | .exited status => status % 256
  | .killed signal => - signal

/-- Why the system takes no such arguments or variables. -/
def launchFault (launch : Launch) : Option Fault :=
  if launch.environment.any fun (name, _) => name.contains '=' then some .badVariableName
  else if launch.arguments.any (·.contains '\x00')
      ∨ launch.environment.any fun (name, value) =>
          name.contains '\x00' || value.contains '\x00' then
    some .embeddedNul
  else none

/-- What a launch begins with, in a directory. -/
def loadingOf (base : Location) (busy : List Location) (launch : Launch) : Script.Loading where
  base := base
  busy := busy
  head? _ := none
  room := Script.Loading.roomBeside launch.executable
    (launch.arguments.tail.map Text.byteLength ++ launch.environment.map fun (name, value) =>
      Text.byteLength name + 1 + Text.byteLength value)

/-- Runs the script that a launch comes to; the child has ended then, and the tree is as
it leaves it. -/
def runLaunch (t : Tree) (busy : List Location) (launch : Launch) : Except Fault (Child × Tree) :=
  match launchFault launch with
  | some fault => .error fault
  | none =>
    let base := match t.locate [] launch.directory with
      | .ok place => place
      | .error _ => []
    match Script.interpretation t (loadingOf base busy launch) Script.interpreterLimit
        (launch.arguments.headD []) launch.executable [] with
    | .error cause => .error (.about cause launch.executable)
    | .ok front =>
      let result := Script.run t busy launch.environment base
        (front ++ launch.arguments.tail)
      .ok (⟨streamOf result.output, streamOf result.errors, exitStatus result.ending⟩,
        result.tree)

/-- The message that announces a launch. -/
def announcement (launch : Launch) : Message :=
  ⟨.debug, "spawn_command: args=" ++ Text.quotedList launch.arguments ++ ", executable="
    ++ Text.quoted launch.executable ++ ", cwd=" ++ Text.quoted launch.directory⟩

/-- **Scripts** — the launcher that runs the scripts of the tree. -/
def scripts : Launcher where
  announce launch := [announcement launch]
  start := runLaunch
  turns _ := []

end Launcher
end LineShell
