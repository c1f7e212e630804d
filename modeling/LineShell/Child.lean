/-
# LineShell.Child -- a running program and the draining of its streams

A started program yields lines on two streams, each of which ends or fails, and has an
exit status. The two streams are drained at the same time, by two threads: each turn of a
thread takes the next line of its stream to its sink, or finds the end of the stream, or
its failure. A failure stops the program and ends that drain; the other one goes on.

A run is a schedule, a list of turns. Each drain moves on its own turns only and touches
its own sink only (`turn_output_error`, `turn_error_output`), so where the lines go does
not depend on how the turns are mixed. Any list of turns can be made into a whole run:
`complete` takes the turns and then lets each drain go on to its end, after which none is
running (`complete_not_running`).
-/

import LineShell.CommandLine
import LineShell.Target

namespace LineShell

/-- **Stream** — the lines that a program yields, and the error that ends them, if any. -/
structure Stream where
  lines : List Text
  failure : Option SystemError
  deriving DecidableEq, Repr

/-- **Child** — what a started program does: its two streams and its exit status. -/
structure Child where
  output : Stream
  error : Stream
  status : Int
  deriving DecidableEq, Repr

/-! ## One stream -/

/-- **Condition** — whether a drain goes on. -/
inductive Condition
  | running
  | finished
  | failed (fault : Fault)
  deriving DecidableEq, Repr

/-- **Drain** — a stream on the way into its sink. -/
structure Drain where
  stream : Stream
  sink : Sink
  condition : Condition
  deriving DecidableEq, Repr

namespace Drain

def start (stream : Stream) (sink : Sink) : Drain := ⟨stream, sink, .running⟩

/-- What a line does that reaches the console on a channel. -/
def lineEvent : Channel → Text → Event
  | .output => .printed
  | .error => .complained

/-- One turn: the drain after it, and what happened. -/
def turn (channel : Channel) (d : Drain) : Drain × List Event :=
  match d.condition, d.stream.lines with
  | .running, line :: rest =>
    let stream := { d.stream with lines := rest }
    match d.sink with
    | .console => ({ d with stream }, [lineEvent channel line])
    | .target writer =>
      match writer.write (line ++ ['\n']) with
      | (writer, true) => ({ d with stream, sink := .target writer }, [])
      | (writer, false) =>
        (⟨stream, .target writer, .failed (.ofCause .noSpace)⟩, [.killed])
  | .running, [] =>
    match d.stream.failure with
    | none => ({ d with condition := .finished }, [])
    | some error => ({ d with condition := .failed (.system error) }, [.killed])
  | _, _ => (d, [])

/-- How many turns a drain can make use of. -/
def turnsLeft (d : Drain) : Nat := d.stream.lines.length + 1

/-- A drain that has come to its end stays as it is. -/
theorem turn_of_not_running {channel : Channel} {d : Drain} (h : d.condition ≠ .running) :
    d.turn channel = (d, []) := by
  unfold turn
  split <;> simp_all

/-- A turn brings a running drain to its end, or leaves it one line less. -/
theorem turnsLeft_turn (channel : Channel) {d : Drain} (h : d.condition = .running) :
    (d.turn channel).1.condition ≠ .running
      ∨ (d.turn channel).1.turnsLeft + 1 = d.turnsLeft := by
  obtain ⟨⟨lines, failure⟩, sink, condition⟩ := d
  simp only at h
  subst h
  cases lines with
  | nil => cases failure <;> simp [turn]
  | cons line rest =>
    cases sink with
    | console => simp [turn, turnsLeft]
    | target writer =>
      simp only [turn]
      split <;> simp_all [turnsLeft]

end Drain

/-! ## Two streams -/

/-- **Draining** — the drains of the two streams of a program. -/
structure Draining where
  output : Drain
  error : Drain
  deriving DecidableEq, Repr

namespace Draining

/-- The drains of a program that was just started. -/
def start (child : Child) (output error : Sink) : Draining :=
  ⟨.start child.output output, .start child.error error⟩

/-- One turn of one of the two threads. -/
def turn (channel : Channel) (d : Draining) : Draining × List Event :=
  match channel with
  | .output =>
    let (output, events) := d.output.turn .output
    ({ d with output }, events)
  | .error =>
    let (error, events) := d.error.turn .error
    ({ d with error }, events)

/-- The turns of a schedule, in order. -/
def run (d : Draining) : List Channel → Draining × List Event
  | [] => (d, [])
  | channel :: schedule =>
    let (d, events) := d.turn channel
    let (d, later) := d.run schedule
    (d, events ++ later)

/-- A schedule that lets both drains come to their end, the output first. -/
def schedule (d : Draining) : List Channel :=
  List.replicate d.output.turnsLeft .output ++ List.replicate d.error.turnsLeft .error

/-- **A whole run** — some turns, and then as many as both drains can make use of. -/
def complete (d : Draining) (turns : List Channel) : Draining × List Event :=
  d.run (turns ++ (d.run turns).1.schedule)

/-- What draining comes to: the failure of the output, or else that of the errors. -/
def outcome (d : Draining) : Except Fault Unit :=
  match d.output.condition, d.error.condition with
  | .failed fault, _ => .error fault
  | _, .failed fault => .error fault
  | _, _ => .ok ()

/-- A turn of one thread leaves the other drain alone. -/
theorem turn_output_error (d : Draining) : (d.turn .output).1.error = d.error := rfl

theorem turn_error_output (d : Draining) : (d.turn .error).1.output = d.output := rfl

theorem run_append (d : Draining) (first second : List Channel) :
    d.run (first ++ second)
      = (((d.run first).1.run second).1, (d.run first).2 ++ ((d.run first).1.run second).2) := by
  induction first generalizing d with
  | nil => simp [run]
  | cons channel rest ih => simp [run, ih]

theorem run_replicate_output (n : Nat) (d : Draining)
    (h : d.output.condition ≠ .running ∨ d.output.turnsLeft ≤ n) :
    (d.run (List.replicate n .output)).1.output.condition ≠ .running
      ∧ (d.run (List.replicate n .output)).1.error = d.error := by
  induction n generalizing d with
  | zero => simpa [run, Drain.turnsLeft] using h
  | succ n ih =>
    have next := ih (d.turn .output).1 (by
      by_cases hr : d.output.condition = .running
      · rcases Drain.turnsLeft_turn .output hr with ht | ht
        · exact .inl ht
        · rcases h with h | h
          · exact absurd hr h
          · exact .inr (by simp only [turn]; omega)
      · exact .inl (by simp [turn, Drain.turn_of_not_running hr, hr]))
    rw [turn_output_error] at next
    simpa [List.replicate_succ, run] using next

theorem run_replicate_error (n : Nat) (d : Draining)
    (h : d.error.condition ≠ .running ∨ d.error.turnsLeft ≤ n) :
    (d.run (List.replicate n .error)).1.error.condition ≠ .running
      ∧ (d.run (List.replicate n .error)).1.output = d.output := by
  induction n generalizing d with
  | zero => simpa [run, Drain.turnsLeft] using h
  | succ n ih =>
    have next := ih (d.turn .error).1 (by
      by_cases hr : d.error.condition = .running
      · rcases Drain.turnsLeft_turn .error hr with ht | ht
        · exact .inl ht
        · rcases h with h | h
          · exact absurd hr h
          · exact .inr (by simp only [turn]; omega)
      · exact .inl (by simp [turn, Drain.turn_of_not_running hr, hr]))
    rw [turn_error_output] at next
    simpa [List.replicate_succ, run] using next

/-- After a whole run both drains have come to their end. -/
theorem complete_not_running (d : Draining) (turns : List Channel) :
    (d.complete turns).1.output.condition ≠ .running
      ∧ (d.complete turns).1.error.condition ≠ .running := by
  have hout := run_replicate_output (d.run turns).1.output.turnsLeft (d.run turns).1
    (.inr (Nat.le_refl _))
  have herr := run_replicate_error (d.run turns).1.error.turnsLeft
    ((d.run turns).1.run (List.replicate (d.run turns).1.output.turnsLeft .output)).1
    (.inr (Nat.le_of_eq (by rw [hout.2])))
  simp only [complete, schedule, run_append]
  exact ⟨by rw [herr.2]; exact hout.1, herr.1⟩

end Draining
end LineShell
