/-
# LineShell.Script.Population -- the processes that live beside one another

Processes start others. A process that ends is remembered until the one that started it
has asked for its ending, and that one receives a signal. A process whose starter has
ended before has nobody who would ask.
-/

import LineShell.Script.Process

namespace LineShell.Script

/-- **Ended** — a process that is over, and the process that may ask how it ended. -/
structure Ended where
  number : Nat
  parent : Nat
  ending : Ending
  deriving DecidableEq, Repr

/-- The number of the process that starts the first one. It lives outside the machine, and
no signal of a script does anything to it. -/
def outsideNumber : Nat := 1

/-- The number of the first process. -/
def firstNumber : Nat := 1000

/-- **Population** — the processes that live, and those that have ended. -/
structure Population where
  living : List Process
  ended : List Ended

namespace Population

/-- The process with a number changes. -/
def alter (p : Population) (number : Nat) (f : Process → Process) : Population :=
  { p with living := p.living.map fun q => if q.number = number then f q else q }

/-- The process with a number is over: nobody asks any more for the processes that it has
started, and the one that has started it receives a signal. -/
def lose (p : Population) (number : Nat) (ending : Ending) : Population :=
  let parent := (p.living.find? (·.number = number)).bind (·.parent)
  let living := (p.living.filter (·.number ≠ number)).map fun q =>
    if q.parent = some number then { q with parent := none }
    else if parent = some q.number then q.receive Signal.child
    else q
  let ended := p.ended.filter (·.parent ≠ number)
  ⟨living, ended ++ (parent.map fun parent => ⟨number, parent, ending⟩).toList⟩

/-- A signal arrives at the process with a number, if that one lives. -/
def signal (p : Population) (number signal : Nat) : Population :=
  match p.living.find? (·.number = number) with
  | none => p
  | some q =>
    match q.reaction signal with
    | .death => p.lose number (.killed signal)
    | _ => p.alter number (·.receive signal)

/-- There is a process with the number, or one that nobody has asked for yet. -/
def knows (p : Population) (number : Nat) : Bool :=
  number = outsideNumber || p.living.any (·.number = number) || p.ended.any (·.number = number)

/-- The process with a number has started one that lives. -/
def hasChildOf (p : Population) (number : Nat) : Bool :=
  p.living.any (·.parent = some number)

/-- The oldest of the processes that have ended and that the one with a number may ask
for. -/
def oldestEnded? (p : Population) (number : Nat) : Option Ended :=
  (p.ended.filter (·.parent = number)).foldl (fun oldest e =>
    match oldest with
    | none => some e
    | some old => some (if e.number < old.number then e else old)) none

/-- The ending of a process has been asked for. -/
def forget (p : Population) (number : Nat) : Population :=
  { p with ended := p.ended.filter (·.number ≠ number) }

end Population
end LineShell.Script
