/-
# LineShell.Script.Schedule -- processes take turns

All processes go on at the same time, as far as they do not wait. Every process has a
clock; the one whose clock shows the earliest moment has the next turn, until its clock has
gone a little beyond that of the next one. What a process waits for comes from others: when
one of them has had its turn, those that it has made ready join in, at the moment that its
clock shows. A signal takes a little time to arrive.

When the first process is over, the others have some time left to come to an end.
-/

import LineShell.Script.Descriptors

namespace LineShell.Script

/-- **Thread** — what the process with a number waits for, and how it goes on. -/
structure Thread where
  number : Nat
  why : Wait
  resume : Machine → Activity

/-- **Schedule** — the threads of all processes that live, which are now among the others on
the machine; the moment that has been reached; and when all is over, once the first process
is. -/
structure Schedule where
  threads : List Thread
  machine : Machine
  now : Nat
  deadline : Option Nat

namespace Schedule

/-- How far a process runs on beyond the clock of the next one, and how far at most before
it is seen what it has done for others. -/
def slack : Nat := 4

def stretch : Nat := 64

/-- How long it takes until a process runs that has waited. -/
def wakeTime : Nat := 50

/-- For how long processes go on when the first one is over. -/
def patience : Nat := 200000

/-- How much room is left in the pipe with an outlet. -/
def roomIn (m : Machine) (outlet : Nat) : Nat :=
  match m.files[outlet]? with
  | some (.outlet queue _) => Step.pipeRoom - queue.size
  | _ => Step.pipeRoom

/-- There are bytes in a pipe, or nobody is left who could write some. -/
def hasBytes (m : Machine) (outlet : Nat) : Bool :=
  match m.files[outlet]? with
  | some (.outlet queue inlet) => 0 < queue.size || ! m.others.any (·.holds inlet)
  | _ => true

/-- A process has what it waits for. -/
def isReady (m : Machine) (p : Process) : Wait → Bool
  | .turn => true
  | .bytes outlet interruptible =>
    hasBytes m outlet || (interruptible && ! p.caught.isEmpty)
  | .room outlet count => count ≤ roomIn m outlet || ! m.others.any (·.holds outlet)
  | .release index => ! m.others.any (·.holds index)
  | .child interruptible =>
    m.ended.any (·.parent = p.number) || (interruptible && ! p.caught.isEmpty)

/-- The process with a number, if it lives. -/
def process? (m : Machine) (number : Nat) : Option Process :=
  m.others.find? (·.number = number)

/-- The threads whose processes live. Those that have what they wait for wait for their turn
from now on. -/
def wake (s : Schedule) : Schedule :=
  let ready (t : Thread) : Bool :=
    t.why ≠ .turn && (process? s.machine t.number).any (isReady s.machine · t.why)
  let woken := (s.threads.filter ready).map (·.number)
  let threads := s.threads.filterMap fun t =>
    if woken.contains t.number then some { t with why := .turn }
    else if (process? s.machine t.number).isSome then some t else none
  if woken.isEmpty then { s with threads }
  else
    let others := s.machine.others.map fun p =>
      if woken.contains p.number then p.delay (s.now + wakeTime) else p
    { s with threads, machine := { s.machine with others } }

/-- The processes that wait for their turn and have time left. -/
def candidates (s : Schedule) : List Process :=
  s.threads.filterMap fun t =>
    if t.why ≠ .turn then none
    else (process? s.machine t.number).filter fun p =>
      ! p.halted && s.deadline.all (p.clock ≤ ·)

/-- The earlier of two processes, the first one of two at the same moment. -/
def earlier (a b : Process) : Process := if b.clock < a.clock then b else a

/-- The machine on which one of the others runs; the horizon depends on those that come
behind it. -/
def enter (s : Schedule) (p : Process) : Machine :=
  let behind := (s.candidates.filter (·.number ≠ p.number)).map (·.clock)
  let limit := p.clock + stretch
  let next := behind.min?.map fun next => max p.clock next + slack
  { s.machine with
    process := p
    others := s.machine.others.filter (·.number ≠ p.number)
    horizon := (next.toList ++ s.machine.sent.map (·.moment)).foldl min limit }

/-- The moment at which all is over, if the first process has ended. -/
def deadlineOf (m : Machine) (now : Nat) (deadline : Option Nat) : Option Nat :=
  if deadline.isNone ∧ m.ended.any (·.number = firstNumber) then some (now + patience)
  else deadline

/-- The signals arrive whose moment has come before that of all processes that wait for
their turn. -/
def deliver (s : Schedule) : Schedule :=
  if s.machine.sent.isEmpty then s
  else
    let next := (s.candidates.map (·.clock)).min?
    let (due, later) := s.machine.sent.partition fun d => next.all (d.moment ≤ ·)
    let after := due.foldl (fun p d => p.signal d.number d.signal)
      (⟨s.machine.others, s.machine.ended⟩ : Population)
    let m := { s.machine with others := after.living, ended := after.ended, sent := later }
    let now := due.foldl (fun now d => max now d.moment) s.now
    wake ⟨s.threads, m, now, deadlineOf m now s.deadline⟩

/-- How many processes one turn may start. -/
def forkLimit : Nat := 100000

/-- A process goes on up to where it waits or is over. The others' threads are `threads`,
and `deadline` is the one so far. -/
def follow (deadline : Option Nat) : Nat → List Thread → Activity → Schedule
  | fuel, threads, activity =>
    let waiting (why : Wait) (m : Machine) (threads : List Thread)
        (resume : Machine → Activity) : Schedule :=
      ⟨threads ++ [⟨m.process.number, why, resume⟩],
        { m with others := m.process :: m.others }, m.process.clock, deadline⟩
    match activity with
    | .pause why m resume => waiting why m threads resume
    | .over ending m =>
      let now := m.process.clock
      let left := m.population.lose m.process.number ending
      let m := { m with others := left.living, ended := left.ended }
      ⟨threads, m, now, deadlineOf m now deadline⟩
    | .fork child start m resume =>
      let threads := threads ++ [⟨child.number, .turn, start⟩]
      let m := { m with others := child :: m.others }
      match fuel with
      | 0 => waiting .turn m threads resume
      | fuel + 1 => follow deadline fuel threads (resume m)

/-- The schedule of a machine on which nothing but its process runs. -/
def start (m : Machine) (activity : Machine → Activity) : Schedule :=
  ⟨[⟨m.process.number, .turn, activity⟩], { m with others := [m.process] }, m.process.clock,
    none⟩

/-- Processes take turns, as often as the fuel tells, until none is ready. -/
def drive : Nat → Schedule → Schedule
  | 0, s => s
  | fuel + 1, s =>
    let s := s.wake.deliver
    match s.candidates with
    | [] => s
    | first :: rest =>
      let p := rest.foldl earlier first
      match s.threads.find? (·.number = p.number) with
      | none => s
      | some thread =>
        let threads := s.threads.filter (·.number ≠ p.number)
        drive fuel (follow s.deadline forkLimit threads (thread.resume (s.enter p)))

end Schedule
end LineShell.Script
