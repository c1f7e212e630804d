/-
# LineShell.Script.Builtins.Signals -- builtins about signals and processes

A script may give a command that runs when a signal arrives or when the script ends; it
may send signals to itself and to other processes, and wait for those that it has started
in the background.
-/

import LineShell.Script.Builtins.Binding
import LineShell.Script.Children

namespace LineShell.Script.Step

/-! ## Traps -/

/-- The traps in the order of the signals. -/
def trapLines (traps : List (Nat × Text)) : List Text :=
  (List.range Signal.names.length).filterMap fun signal =>
    (traps.lookup signal).map fun action =>
      "trap -- " ++ shellQuoted action ++ ' ' :: Signal.name signal

/-- The traps of signals are set anew, up to the first that is none. -/
def setTraps (action : Option Text) : List Text → Step Int
  | [] => return 0
  | signal :: rest => do
    match Signal.ofText? signal with
    | none =>
      complain ("trap: " ++ signal ++ ": bad trap")
      return 1
    | some signal =>
      change fun p =>
        { p with
          traps := (match action with
            | some action => [(signal, action)]
            | none => []) ++ p.traps.filter (·.1 ≠ signal) }
      setTraps action rest

/-- Sets or shows what runs when signals arrive. -/
def trap : Builtin := fun arguments => do
  match (← options [] arguments).2 with
  | [] => putLines (trapLines (← ask (·.traps)))
  | [signal] => setTraps none [signal]
  | action :: signals =>
    if (Signal.ofNumber? action).isSome then setTraps none (action :: signals)
    else setTraps (if action = ['-'] then none else some action) signals

/-! ## Sending signals -/

/-- The job that a text stands for. -/
def jobOf (text : Text) : Step Job := do
  match Job.designated (← ask (·.jobs)) text with
  | .job j => return j
  | .noCurrent => fail "No current job"
  | .noPrevious => fail "No previous job"
  | .unknown => fail ("No such job: " ++ text)

/-- There is no process to send a signal to. -/
def noProcess : Step Int := do
  warn "No such process\n"
  return 1

/-- A signal is sent to a process. Jobs are no groups of processes, and the group that all
processes belong to is taken for the first one. -/
def send (signal : Nat) (text : Text) : Step Int := do
  if text.head? = some '%' then
    let _ ← jobOf text
    noProcess
  else
    let number ← natural (if text.head? = some '-' then text.tail else text)
    let number := if number = 0 then firstNumber else number
    if text.head? = some '-' ∧ number ≠ firstNumber then noProcess
    else if ← sendTo number signal then return 0
    else noProcess

/-- The message about arguments that `kill` does not understand. -/
def killUsage : Text :=
  "Usage: kill [-s sigspec | -signum | -sigspec] [pid | job]... or\nkill -l [exitstatus]"

/-- The names of the signals, or of one. -/
def listSignals : List Text → Step Int
  | [] => putLines (['0'] :: Signal.names.tail)
  | status :: _ => do
    let number ← natural status
    let signal := if 128 < number then number - 128 else number
    if 0 < signal ∧ signal < Signal.names.length then putLines [Signal.name signal]
    else fail ("invalid signal number or exit status: " ++ status)

/-- The signal of a text, where the end of the script does not count as one. -/
def sendable? (text : Text) : Option Nat :=
  (Signal.ofText? text).filter fun signal => signal ≠ 0 || (number? text).isSome

/-- The value of the option `s` names a signal. -/
def checkSignal : OptionCheck := fun letter name => do
  if letter = 's' ∧ (sendable? name).isNone then
    fail ("invalid signal number or name: " ++ name)

/-- Sends a signal to processes, or lists the signals. -/
def kill : Builtin := fun arguments => do
  let direct : Option Nat := match arguments with
    | ('-' :: name) :: _ => sendable? name
    | _ => none
  let (signal, listed, processes) ← match direct, arguments with
    | some signal, _ :: rest => pure (some signal, false, rest)
    | _, _ => do
      let (given, rest) ← checkedOptions checkSignal "ls:" arguments
      let names := (given.filter (·.1 = 's')).map (·.2)
      pure (names.getLast?.bind sendable?, given.any (·.1 = 'l'), rest)
  if listed then
    if signal.isSome ∧ processes ≠ [] then fail killUsage
    listSignals processes
  else if processes = [] then fail killUsage
  else
    let statuses ← processes.mapM (send (signal.getD Signal.termination))
    return if statuses.all (· = 0) then 0 else 1

/-! ## Waiting -/

/-- The status of a wait that a signal has interrupted. -/
def interruptedStatus : Step Int := do
  return 128 + ((← ask (·.caught)).getLastD 0 : Nat)

/-- A job that the script has waited for. -/
def noteAwaited (number : Nat) : Step Unit :=
  change fun p =>
    { p with
      jobs := p.jobs.map fun j => if j.number = number then { j with awaited := true } else j }

/-- The job that a text denotes, by its last process or as a job. -/
def awaited? (text : Text) : Step (Option Job) := do
  if text.head? = some '%' then return some (← jobOf text)
  else
    let number ← natural text
    ask fun p => p.jobs.find? (·.process = number)

/-- Waits for the jobs that texts denote, one after the other; the status so far is
`status`. -/
def awaitNamed : Int → List Text → Step Int
  | status, [] => return status
  | status, text :: rest => do
    match ← awaited? text with
    | none => awaitNamed status rest
    | some job =>
      if ← awaitJob job.number then
        noteAwaited job.number
        let ending := (← job? job.number).bind (·.ending?)
        awaitNamed ((ending.map (·.status)).getD 0) rest
      else interruptedStatus

/-- Waits for all jobs. Those in front of the first one that still runs have been waited
for. -/
def awaitJobs : Nat → Step Int
  | 0 => return 0
  | fuel + 1 => do
    let finished := (← ask (·.jobs)).takeWhile (·.isOver)
    finished.forM fun j => noteAwaited j.number
    if finished.length = (← ask (·.jobs)).length then return 0
    else if ← awaitAny then awaitJobs fuel
    else interruptedStatus

/-- Waits for processes in the background. -/
def wait : Builtin := fun arguments => do
  let (_, names) ← options [] arguments
  if names = [] then awaitJobs waitLimit else awaitNamed 127 names

/-! ## Jobs -/

/-- Shows a job, which is forgotten if it is over. -/
def showJob (style : Option Char) (j : Job) : Step Int := do
  let all ← ask (·.jobs)
  let lines := if style = some 'p' then [Text.ofInt j.first]
    else j.lines (j.markIn all) (style = some 'l')
  if j.isOver then change fun p => { p with jobs := p.jobs.filter (·.number ≠ j.number) }
  putLines lines

/-- Shows the jobs of the script. -/
def jobs : Builtin := fun arguments => do
  let (given, names) ← options "lp" arguments
  let style := given.getLast?.map (·.1)
  if names = [] then askForAll
  let statuses ← if names = [] then (← ask (·.jobs)).mapM (showJob style)
    else names.mapM fun name => do showJob style (← jobOf name)
  return statuses.getLastD 0

/-- Jobs cannot be continued, as none was started under control of a terminal. -/
def continueJob : Builtin := fun arguments => do
  let (_, names) ← options [] arguments
  let name := names.headD "%"
  let _ ← jobOf name
  fail ("job " ++ names.headD "(null)" ++ " not created under job control")

/-- The times that the script has taken. -/
def times : Builtin := fun _ =>
  putLines (List.replicate 2 "0m0.000000s 0m0.000000s")

end LineShell.Script.Step
