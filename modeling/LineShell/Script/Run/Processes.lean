/-
# LineShell.Script.Run.Processes -- processes that a script starts

Some commands run in a process of their own, whose changes to itself are lost when it ends.
A process that comes to its end, exits or fails first runs the command that was given for
that.

The script waits for a process in the foreground. What commands in a word write is
collected until nobody is left that could write more.

A script chooses the marks that stand in front of its commands when they are shown, and
the prompts that stand in front of its lines in a conversation. They are read like
documents.
-/

import LineShell.Script.Children
import LineShell.Script.Run.Texts

namespace LineShell.Script.Step

/-! ## Processes -/

/-- Runs a step to its end or until it stops, and tells why. -/
def attempt (step : Step Unit) : Step (Option Stop) :=
  tryCatch (do step; return none) fun why => return some why

/-- The process is over; the command for its end runs. A command that exits by itself
decides about the status. -/
def finish (run : Runner) (stopped : Option Stop) : Step Ending := do
  let p ← ask id
  match stopped, p.traps.lookup 0 with
  | some (.killed signal), _ => return .killed signal
  | _, none | _, some [] => return .exited p.status
  | _, some action =>
    change fun p =>
      { p with
        traps := p.traps.filter (·.1 ≠ 0)
        skip := .none
        savedStatus := some p.status }
    match ← attempt (do let _ ← runLines run false .nothing (.ofText action)) with
    | none => return .exited p.status
    | some (.killed signal) => return .killed signal
    | some _ => return .exited (← ask (·.status))

/-- Starts a process that runs a step: with what delay, and how it is prepared. -/
def startProcess (run : Runner) (delay : Nat) (prepare : Process → Process)
    (step : Step Unit) : Step Nat :=
  fork delay prepare do finish run (← attempt step)

/-- The status is that of a process that has ended. -/
def noteEnding (ending : Option Ending) : Step Unit :=
  match ending with
  | some ending => setStatus ending.status
  | none => return ()

/-- Runs a step in a process of its own, in the foreground. -/
def inProcess (run : Runner) (step : Step Unit) : Step Unit := do
  let number ← startProcess run promptStartTime id step
  noteEnding (← awaitAll [number])

/-- **The output of commands** in a word. -/
def capture (run : Runner) : Capture
  | none => return []
  | some command => do
    let status ← ask (·.status)
    let index ← addFile (.collector [])
    let number ← startProcess run promptStartTime (·.setDescriptor 1 (some index)) do
      change ({ · with isLast := true })
      run false command
    waitFor (.release index)
    let written := (← get).collected index
    setOpenFile index (.collector [])
    noteEnding (← awaitAll [number])
    change fun p => { p with substituted := p.status, status }
    return written

/-! ## Signals that were caught -/

/-- Runs the commands for signals. -/
def runTrapsOf (run : Runner) (status : Int) : List Nat → Step Unit
  | [] => return ()
  | signal :: rest => do
    match (← ask (·.traps)).lookup signal with
    | none | some [] => runTrapsOf run status rest
    | some action =>
      let _ ← runLines run false .nothing (.ofText action)
      match ← ask (·.skip) with
      | .function => change fun p => { p with caught := rest ++ p.caught }
      | .none =>
        setStatus status
        runTrapsOf run status rest
      | _ =>
        setStatus status
        change fun p => { p with caught := rest ++ p.caught }

/-- Runs the commands for the signals that have arrived, in the order of the signals. The
status of the script stays. -/
def runTraps (run : Runner) : Step Unit := do
  let p ← ask id
  if p.caught = [] ∨ p.skip ≠ .none then return ()
  let status := p.savedStatus.getD p.status
  change ({ · with caught := [], savedStatus := some status })
  runTrapsOf run status (p.caught.eraseDups.mergeSort (· ≤ ·))
  change ({ · with savedStatus := p.savedStatus })

/-! ## Prompts -/

/-- The text that the mark of a name stands for. It stays as it is if it cannot be read or
expanded. Commands in it are not shown. -/
def markOf (run : Runner) (name : Text) : Step Text := do
  let mark := (← value? name).getD []
  let marking ← ask (·.marking)
  let expanded : Step Text := do
    let ahead := if ← ask (·.ahead) then some Token.finish else none
    let source := { Source.ofText mark 1 0 [] with ahead }
    let word ← accept .nothing (← attemptReading Reader.wholeDocument source)
    expandText (capture run) Mode.document word
  change ({ · with marking := true })
  let text ← tryCatch expanded fun why => if why = .failed then return mark else throw why
  change ({ · with marking })
  return text

/-- How many lines behind the first one were begun while commands were read. A line feed
that ends them begins no line. -/
def furtherLines (isRead : Bool) (before after : Source) : Nat :=
  let count := after.line - before.line
  let read := before.rest.take (before.rest.length - after.rest.length)
  let ends := after.ahead.isNone && (isRead || after.rest ≠ []) && read.getLast? = some '\n'
  if ends then count - 1 else count

/-- In a conversation prompts stand in front of the lines. -/
def Watch.prompts (run : Runner) : Watch := fun isRead before after => do
  if ← hasOption 'i' then
    let _ ← write 2 (← markOf run "PS1")
    (List.range (furtherLines isRead before after)).forM fun _ => do
      let _ ← write 2 (← markOf run "PS2")
  Watch.lines isRead before after

end LineShell.Script.Step
