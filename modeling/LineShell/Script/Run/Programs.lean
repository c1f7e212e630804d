/-
# LineShell.Script.Run.Programs -- programs that a script starts

A program that a script starts is a script, too: it runs in a process that takes over the
descriptors, the directory and the exported variables, and nothing else. An executable
file that names no interpreter is run by the interpreter of scripts as well.

The interpreter takes options, and then a script: the path of one, the text of one behind
the option `-c`, or else what stands on its input.
-/

import LineShell.Script.Builtins.Binding
import LineShell.Script.Run.Lookup
import LineShell.Script.Start

namespace LineShell.Script.Step

/-! ## The interpreter -/

/-- The options of the interpreter, switched on or off; tells whether a text is to be run,
and which arguments are left. -/
def interpreterOptions : Nat → List Text → Step (Bool × List Text)
  | 0, arguments => return (false, arguments)
  | fuel + 1, arguments => do
    match arguments with
    | ['-'] :: rest => return (false, rest)
    | ['-', '-'] :: rest => return (false, rest)
    | ('-' :: letters) :: rest =>
      let rest ← switchLetters true (letters.filter (· ≠ 'c')) rest
      let (given, rest) ← interpreterOptions fuel rest
      return ('c' ∈ letters || given, rest)
    | ('+' :: letters) :: rest => interpreterOptions fuel (← switchLetters false letters rest)
    | arguments => return (false, arguments)

/-- The bytes on the input. -/
def input : Supply := ⟨[], some do
  match ← openFile? 0 with
  | some (index, _) => takeChunk index
  | none => return []⟩

/-- The script with a name and arguments runs. -/
def runScript (run : Runner) (name : Text) (parameters : List Text) (watch : Watch)
    (supply : Supply) : Step Unit := do
  change ({ · with name, parameters })
  refuseJobControl
  let _ ← runLines run false watch supply

/-- The lines of a script run as in a conversation, if it wants that: prompts stand in
front of them, and behind a failure it goes on with what stands on its input. -/
def converse (run : Runner) (name : Text) (parameters : List Text) (supply : Supply) :
    Step Unit :=
  tryCatch (runScript run name parameters (.prompts run) supply) fun why => do
    if why = .failed ∧ (← hasOption 'i') then
      let _ ← runLines run false (.prompts run) input
    else throw why

/-- **The interpreter** runs what its arguments ask for. -/
def interpret (run : Runner) (arguments : List Text) : Step Unit := do
  let (given, rest) ← interpreterOptions (arguments.length + 1) arguments
  let name ← ask (·.name)
  if given then
    match rest with
    | [] => fail "-c requires an argument"
    | text :: rest => runScript run (rest.headD name) rest.tail .nothing (.ofText text)
  else
    match rest, ← hasOption 's' with
    | path :: parameters, false =>
      match ← openForReading path with
      | .error cause =>
        fail ("cannot open " ++ path ++ ": " ++ reasonOf "No such file" cause)
      | .ok index => converse run path parameters (.ofOpen index)
    | parameters, _ => converse run name parameters input

/-! ## Programs of the tree -/

/-- The process becomes one that the interpreter runs in, and runs; it does not come
back. -/
def become (run : Runner) (arguments : List Text) : Step Unit := do
  let m ← get
  let environment ← environment
  let p := m.process
  change fun _ =>
    { Process.start m.tree "/bin/sh" environment p.directory
        ⟨p.number, p.parent, p.clock + executionTime, p.descriptors⟩ with
      ignored := p.ignored ++ (p.traps.filter fun (_, action) => action = []).map (·.1)
      mask := p.mask
      limits := p.limits }
  interpret run arguments
  stop .exited

/-- What the program at a path, started under a name, begins its run with. -/
def loadingAt (path : Text) (arguments : List Text) : Step Loading := do
  let m ← get
  let settings := (← environment).map fun (name, value) => name.length + 1 + value.length
  return {
    base := m.process.directory
    busy := m.writtenPlaces
    head? := fun place => (m.content? place).map (·.slice 0 headLength)
    room := Loading.roomBeside (textOf path) (arguments.map List.length ++ settings) }

/-- What the arguments of the interpreter are for a program at a path. -/
def interpretationAt (name path : Text) (arguments : List Text) :
    Step (Except Cause (List Text)) := do
  let m ← get
  let loading ← loadingAt path arguments
  return (interpretation m.tree loading interpreterLimit (textOf name) (textOf path) []).map
    fun front => front.map bytesOf ++ arguments

/-- The first of some paths that can be run is run; `cause` is why none could so far. -/
def executeFirst (run : Runner) (name : Text) (arguments : List Text) :
    Cause → List Text → Step Unit
  | cause, [] => do
    warn (name ++ ": " ++ reasonOf "not found" cause)
    let missing := cause = .noSuchFile ∨ cause = .notDirectory ∨ cause = .nameTooLong
      ∨ cause = .tooManyLinks
    setStatus (if missing then 127 else 126)
    stop .exited
  | cause, path :: rest => do
    match ← interpretationAt name path arguments with
    | .ok arguments => become run arguments
    | .error .badFormat => become run (path :: arguments)
    | .error .noSuchFile | .error .notDirectory =>
      executeFirst run name arguments cause rest
    | .error other => executeFirst run name arguments other rest

/-- **Execution** — the process becomes the program of a name, which is in none of the
first `known` directories of the search path. -/
def execute (run : Runner) (searchPath : Text) (known : Nat) (name : Text)
    (arguments : List Text) : Step Unit :=
  let shelves := ((SearchPath.shelves searchPath).drop known).filter (·.holding = .programs)
  executeFirst run name arguments .noSuchFile
    (if '/' ∈ name then [name] else shelves.map (Shelf.path · name))

/-- Some signal is caught by a command. -/
def hasTraps : Step Bool := ask fun p => p.traps.any fun (_, action) => action ≠ []

/-- A program runs in a process of its own, or in that of a script which has nothing more
to do. -/
def runProgram (run : Runner) (isLast : Bool) (searchPath : Text) (known : Nat) (name : Text)
    (arguments : List Text) : Step Unit := do
  let execution := execute run searchPath known name arguments
  if isLast ∧ ¬ (← hasTraps) then execution else inProcess run execution

/-- A command is not found. -/
def missing (name : Text) (cause : Cause) : Step Unit := do
  warn (name ++ ": " ++ reasonOf "not found" cause)
  setStatus 127

end LineShell.Script.Step
