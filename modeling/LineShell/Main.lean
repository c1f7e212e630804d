/-
# LineShell.Main -- the shell as a program

The shell is run on a directory tree held in memory, which holds the devices, the working
directory and the home directory of the process, and nothing else to begin with. Of the
process's variables it takes those that it knows of, and it has no home directory on record.
The input is read to its end; the run is computed from it, and then its outputs are written.
-/

import LineShell.Invocation
import LineShell.Launcher.Scripts

namespace LineShell.Terminal

/-- The variables that are taken from the process. -/
def inherited : List Text := ["HOME", "PATH", "PWD", levelVariable, promptVariable]

/-- The values of the inherited variables that are set. -/
def readVariables : IO Environment :=
  inherited.filterMapM fun name => do
    let value ← IO.getEnv (String.ofList name)
    return value.map fun text => (name, text.toList)

/-- The rest of a stream. -/
partial def readAll (stream : IO.FS.Stream) (before : String) : IO String := do
  let line ← stream.getLine
  if line.isEmpty then return before
  readAll stream (before ++ line)

/-- The location that an absolute path in a variable spells out. -/
def placeIn (environment : Environment) (name : Text) : Location :=
  Tree.locationOf [] ((environment.value? name).getD [])

/-- One run of the shell; the result is the exit status. -/
def run (arguments : List String) : IO UInt32 := do
  let environment ← readVariables
  let input ← readAll (← IO.getStdin) ""
  let directory := placeIn environment "PWD"
  let tree := (Tree.empty.putDirectory directory).putDirectory (placeIn environment "HOME")
  let outcome := Invocation.run ⟨directory, environment, none, 990⟩ Launcher.scripts
    (arguments.map String.toList) input.toList tree
  (← IO.getStdout).putStr (String.ofList outcome.output)
  (← IO.getStderr).putStr (String.ofList outcome.errors)
  return outcome.ending.code.toNat.toUInt32

end LineShell.Terminal

def main (arguments : List String) : IO UInt32 := LineShell.Terminal.run arguments
