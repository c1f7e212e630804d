/-
# LineShell.Script.Children -- waiting for processes that were started

A process learns how others ended that it has started, the oldest of them first. While it
waits for a command in the foreground nothing interrupts it. When it waits for jobs, a
signal does for which it has an action. In the end it asks for all others, too, that have
ended meanwhile.

It is said how a process ended by a signal, but only of those that are waited for.
-/

import LineShell.Script.Descriptors

namespace LineShell.Script.Step

/-- What is said about the ending of a process that was waited for. -/
def lament (ending : Ending) : Step Unit :=
  if ending.obituary ≠ [] then complain ending.obituary else return ()

/-- Waits until processes have ended that were started; `wanted` are the ones that still
run, and `found` those that have ended. -/
def awaitWithin : Nat → List Nat → List Ended → Step (List Ended)
  | 0, _, found => return found
  | fuel + 1, wanted, found => do
    match ← reap? with
    | some e =>
      if e.number ∈ wanted then
        lament e.ending
        awaitWithin fuel (wanted.erase e.number) (e :: found)
      else awaitWithin fuel wanted found
    | none =>
      if wanted = [] ∨ ¬ (← hasChildren) then return found
      else
        waitFor (.child false)
        awaitWithin fuel wanted found

/-- **Waiting** for processes in the foreground: how the last one of them ended. -/
def awaitAll (processes : List Nat) : Step (Option Ending) := do
  change fun p => { p with jobs := (Job.claim p.jobs).2 }
  let found ← awaitWithin waitLimit processes []
  return (processes.getLast?.bind fun last => found.find? (·.number = last)).map (·.ending)

/-- The job with a number. -/
def job? (number : Nat) : Step (Option Job) := ask fun p => p.jobs.find? (·.number = number)

/-- The job with a number still runs, as far as the script knows. -/
def jobRuns (number : Nat) : Step Bool := return (← job? number).any (! ·.isOver)

/-- Waits until a job is over, or, without one, until some process has ended. The answer
tells whether no signal has interrupted that. If the script does not want to wait, it only
asks for the processes that have ended already. -/
def awaitJobWithin (job : Option Nat) : Nat → Bool → Step Bool
  | 0, _ => return true
  | fuel + 1, waits => do
    match ← reap? with
    | some e =>
      match job with
      | none => awaitJobWithin job fuel false
      | some number =>
        if (← job? number).any (·.processes.any (·.1 = e.number)) then lament e.ending
        awaitJobWithin job fuel (waits && (← jobRuns number))
    | none =>
      if ¬ waits ∨ ¬ (← hasChildren) then return true
      else if (← ask (·.caught)) ≠ [] then return false
      else
        waitFor (.child true)
        awaitJobWithin job fuel waits

/-- Waits for a job that runs. -/
def awaitJob (number : Nat) : Step Bool := do
  awaitJobWithin number waitLimit (← jobRuns number)

/-- Waits until some process has ended. -/
def awaitAny : Step Bool := awaitJobWithin none waitLimit true

/-- Asks for all processes that have ended. -/
def askForAll : Step Unit := do
  let _ ← awaitJobWithin none waitLimit false

end LineShell.Script.Step
