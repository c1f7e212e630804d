/-
# LineShell.Script.Process -- the state of a process that runs a script

A script is run by a process. A process has its variables, functions and arguments, its
working directory, its descriptors, and what it has to remember while commands run. It has
a number and knows the process that started it, and it has a clock, which tells how long
it has been running.

A process does something about the signals that it receives: an action of the script waits
for them, or they end it, or it halts.
-/

import LineShell.Script.Field
import LineShell.Script.Job
import LineShell.Script.Reading.Commands
import LineShell.Tree.Basic

namespace LineShell.Script

/-- **Variable** — a value, if there is one, whether it is passed on to programs, and
whether it may change. -/
structure Variable where
  value : Option Text
  exported : Bool
  readOnly : Bool

/-- **Skip** — what commands are passed over for: leaving loops, the next turn of a loop,
or the end of a function or script. -/
inductive Skip
  | none
  | loops
  | turn
  | function
  deriving DecidableEq

/-- **Scope** — what variables were before they were kept locally, those kept last first,
and what the options were. -/
structure Scope where
  bindings : List (Text × Option Variable)
  options : Option (List Char)

/-- **Known** — a program that was found before: the number of its directory on the search
path, and whether it has to be looked for again, because the working directory changed. -/
structure Known where
  index : Nat
  stale : Bool
  deriving DecidableEq, Repr

/-- **Limit** — how much of something a process may use, and how far it may raise that;
nothing stands for no limit. -/
structure Limit where
  soft : Option Nat
  hard : Option Nat
  deriving DecidableEq, Repr

/-- **Process** — the state of a process. The script takes `identity` for its number. Open
files are `kept` while a redirect hides them. While `marking` the process does not show its
commands; it ends behind a command that `isLast`. The end of a script that has been read
may be `ahead` of what is read next. -/
structure Process where
  number : Nat
  parent : Option Nat
  identity : Nat
  clock : Nat
  halted : Bool
  name : Text
  parameters : List Text
  bindings : List (Text × Variable)
  scopes : List Scope
  functions : List (Text × Command)
  aliases : List (Text × Text)
  known : List (Text × Known)
  traps : List (Nat × Text)
  ignored : List Nat
  caught : List Nat
  jobs : List Job
  options : List Char
  directory : Location
  path : Text
  mask : Nat
  descriptors : List (Nat × Nat)
  kept : List Nat
  unwritten : List Text
  status : Int
  substituted : Int
  line : Nat
  lineRead : Nat
  command : Option Text
  depth : Nat
  loops : Nat
  skip : Skip
  skipCount : Nat
  savedStatus : Option Int
  optionIndex : Nat
  optionOffset : Option Nat
  background : Option Nat
  marking : Bool
  ahead : Bool
  isLast : Bool
  limits : List (Char × Limit)

namespace Process

/-- What a new process begins with: signals are no longer caught by commands, and it has
started no others. -/
def copy (p : Process) : Process :=
  { p with
    traps := p.traps.filter fun (_, action) => action = []
    caught := []
    jobs := []
    isLast := false }

/-- A descriptor stands for the open file at an index, or for nothing. -/
def setDescriptor (p : Process) (descriptor : Nat) (index : Option Nat) : Process :=
  { p with
    descriptors := (match index with
      | some index => [(descriptor, index)]
      | none => []) ++ p.descriptors.filter (·.1 ≠ descriptor) }

/-- The process has the open file at an index. -/
def holds (p : Process) (index : Nat) : Bool :=
  p.descriptors.any (·.2 = index) || p.kept.contains index

/-- Time goes by for the process. -/
def spend (p : Process) (ticks : Nat) : Process := { p with clock := p.clock + ticks }

/-- The process waits for its turn until a moment, if that has not come yet. -/
def delay (p : Process) (moment : Nat) : Process := { p with clock := max p.clock moment }

/-! ## Signals -/

/-- **Reaction** — what a process does about a signal. -/
inductive Reaction
  | nothing
  | action
  | halt
  | death
  deriving DecidableEq, Repr

/-- What the process does about a signal. -/
def reaction (p : Process) (signal : Nat) : Reaction :=
  if signal = Signal.forced then .death
  else if signal = Signal.halting then .halt
  else if signal ∈ p.ignored then .nothing
  else match p.traps.lookup signal with
    | some [] => .nothing
    | some _ => .action
    | none =>
      if Signal.isHarmless signal then .nothing
      else if Signal.isHalting signal then .halt else .death

/-- The process after a signal that does not end it. -/
def receive (p : Process) (signal : Nat) : Process :=
  let p := { p with halted := p.halted && signal ≠ Signal.continuing }
  match p.reaction signal with
  | .action => { p with caught := p.caught ++ [signal] }
  | .halt => { p with halted := true }
  | .nothing | .death => p

end Process
end LineShell.Script
