/-
# LineShell.Script.Step -- pieces of a process

A `Step` is what a process does, or a piece of it: it gives a result, or stops because the
process fails, exits or is killed. In between it may start other processes and wait, and
then others go on. So what a step comes to is an `Activity`: the process is over, it has
started another one, or it waits for something, each with what it does next.

A step is told what follows its result and what follows its stop. `bind` and `tryCatch` put
steps together by that; the laws of monads hold by definition.
-/

import LineShell.Script.Machine

namespace LineShell.Script

/-- **Wait** — what a process waits for: its turn; bytes in a pipe, or a signal as well if
it may be interrupted; so much room in a pipe; that nobody has an open file any more; the
end of a process that it has started, or a signal. -/
inductive Wait
  | turn
  | bytes (outlet : Nat) (interruptible : Bool)
  | room (outlet : Nat) (count : Nat)
  | release (index : Nat)
  | child (interruptible : Bool)
  deriving DecidableEq, Repr

/-- **Activity** — how a process goes on: it is over, it has started a child, or it waits.
What follows is done on the machine as it is then. -/
inductive Activity
  | over (ending : Ending) (m : Machine)
  | fork (child : Process) (start : Machine → Activity) (m : Machine)
      (resume : Machine → Activity)
  | pause (why : Wait) (m : Machine) (resume : Machine → Activity)

/-- **Stop** — why a run of commands does not come to its end: the process fails, exits or
is killed. -/
inductive Stop
  | failed
  | exited
  | killed (signal : Nat)
  deriving DecidableEq, Repr

/-- **Step** — a run of commands, or a piece of one. -/
def Step (α : Type) : Type :=
  (α → Machine → Activity) → (Stop → Machine → Activity) → Machine → Activity

namespace Step

instance : Monad Step where
  pure a := fun result _ m => result a m
  bind step next := fun result stopped m =>
    step (fun a m => next a result stopped m) stopped m

instance : LawfulMonad Step :=
  LawfulMonad.mk' Step (fun _ => rfl) (fun _ _ => rfl) (fun _ _ _ => rfl)

instance : MonadStateOf Machine Step where
  get := fun result _ m => result m m
  set m := fun result _ _ => result () m
  modifyGet f := fun result _ m => let (a, m) := f m; result a m

instance : MonadExceptOf Stop Step where
  throw why := fun _ stopped m => stopped why m
  tryCatch step handle := fun result stopped m =>
    step result (fun why m => handle why result stopped m) m

/-- What a piece of the process is. -/
def ask {α : Type} (f : Process → α) : Step α := fun result _ m => result (f m.process) m

/-- The process changes. -/
def change (f : Process → Process) : Step Unit := fun result _ m =>
  result () { m with process := f m.process }

def stop {α : Type} (why : Stop) : Step α := throw why

/-- The process waits. -/
def waitFor (why : Wait) : Step Unit := fun result _ m => .pause why m (result ())

/-- How often a process looks again whether it has to go on waiting. -/
def waitLimit : Nat := 1000000000

/-! ## Time -/

/-- What starting a process takes, in units of one command. -/
def forkTime : Nat := 200

/-- When a process starts to run whose starter goes on, and one whose starter waits. -/
def startTime : Nat := 600

def promptStartTime : Nat := 300

/-- What becoming another program takes. -/
def executionTime : Nat := 1500

/-- What a signal takes to arrive. -/
def signalTime : Nat := 20

/-- Time goes by. -/
def spend (ticks : Nat) : Step Unit := change (·.spend ticks)

/-- Others have their turn when the process has run for long enough. -/
def giveWay : Step Unit := do
  let m ← get
  if m.horizon < m.process.clock then waitFor .turn

/-! ## Signals -/

/-- A signal arrives at the process itself. -/
def receive (signal : Nat) : Step Unit := do
  match ← ask (·.reaction signal) with
  | .death => stop (.killed signal)
  | .halt =>
    change (·.receive signal)
    waitFor .turn
  | .action | .nothing => change (·.receive signal)

/-- A signal is on its way. Others have their turn when it arrives. -/
def dispatch (number signal : Nat) : Step Unit :=
  modify fun m =>
    let moment := m.process.clock + signalTime
    { m with
      sent := m.sent ++ [⟨moment, number, signal⟩]
      horizon := min m.horizon moment }

/-- A signal is sent to the process with a number; the answer tells whether there is
one. -/
def sendTo (number signal : Nat) : Step Bool := do
  let m ← get
  if number = m.process.number then
    if signal ≠ 0 then receive signal
    return true
  else if m.population.knows number then
    if signal ≠ 0 then dispatch number signal
    return true
  else return false

/-! ## Other processes -/

/-- A process begins as a copy of this one, changed as `prepare` tells; it runs a step, whose
result is its ending. The number of the new process is known here. -/
def fork (delay : Nat) (prepare : Process → Process) (step : Step Ending) : Step Nat :=
  fun result _ m =>
    let number := m.started + 1
    let child := prepare { (m.process.copy.spend delay) with
      number, parent := some m.process.number }
    .fork child (step .over fun _ => .over (.exited 2))
      { m with started := number, process := m.process.spend forkTime } (result number)

/-- The process asks for one that it has started and that has ended. -/
def reap? : Step (Option Ended) := do
  let m ← get
  match m.population.oldestEnded? m.process.number with
  | none => return none
  | some e =>
    modify (·.among (·.forget e.number))
    change fun p => { p with jobs := p.jobs.map (Job.note e.number e.ending) }
    return some e

/-- Some process that this one has started lives. -/
def hasChildren : Step Bool := do
  let m ← get
  return m.population.hasChildOf m.process.number

end Step
end LineShell.Script
