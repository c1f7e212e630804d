/-
# LineShell.Script.Job -- the processes that a script has started

A job is what a script has started in the background: a process, or one for each command
of a pipeline. A job has a number, the least one that is free. It stays in the table of
jobs when it is over, until it was shown, or until its number is needed for another one
and the script has waited for it. What a script runs in the foreground needs a number,
too, while it runs.
-/

import LineShell.Script.Signal

namespace LineShell.Script

/-- **Ending** — how a process ended: with a status, or by a signal. -/
inductive Ending
  | exited (status : Int)
  | killed (signal : Nat)
  deriving DecidableEq, Repr

namespace Ending

/-- The status that a script sees of a process that ended. -/
def status : Ending → Int
  | exited status => status % 256
  | killed signal => 128 + signal

/-- What is said about the ending of a process that was waited for, if anything. -/
def obituary : Ending → Text
  | exited _ => []
  | killed signal => Signal.obituary signal

/-- The ending as a list of jobs tells it. -/
def title : Ending → Text
  | exited status =>
    if status % 256 = 0 then "Done" else "Done(" ++ Text.ofInt (status % 256) ++ [')']
  | killed signal => Signal.title signal

end Ending

/-- **Job** — what was started in the background: its number, its processes with how those
ended of which the script knows that, and whether it has waited for the job. -/
structure Job where
  number : Nat
  processes : List (Nat × Option Ending)
  awaited : Bool
  deriving DecidableEq, Repr

namespace Job

/-- A job whose processes have just begun. -/
def start (number : Nat) (processes : List Nat) : Job :=
  ⟨number, processes.map (·, none), false⟩

/-- The script knows that the job is over. -/
def isOver (j : Job) : Bool := j.processes.all (·.2.isSome)

/-- The first process of the job. -/
def first (j : Job) : Nat := (j.processes.head?.map (·.1)).getD 0

/-- The process that the job is known by. -/
def process (j : Job) : Nat := (j.processes.getLast?.map (·.1)).getD 0

/-- How the job ended, which its last process decides about. -/
def ending? (j : Job) : Option Ending :=
  if j.isOver then j.processes.getLast?.bind (·.2) else none

/-- The script learns how a process ended. -/
def note (process : Nat) (ending : Ending) (j : Job) : Job :=
  { j with
    processes := j.processes.map fun (number, old) =>
      (number, if number = process then some ending else old) }

/-- A new job may have the number. -/
def isFree (jobs : List Job) (number : Nat) : Bool :=
  jobs.all fun j => j.number ≠ number || (j.isOver && j.awaited)

/-- The number of a new job, and the jobs that are left beside it. -/
def claim (jobs : List Job) : Nat × List Job :=
  let numbers := (List.range (jobs.length + 1)).map (· + 1)
  let number := (numbers.find? (isFree jobs)).getD 1
  (number, jobs.filter (·.number ≠ number))

/-- How wide a line about a job is in front of what it runs, which is not known. -/
def lineWidth : Nat := 33

/-- A text filled up with blanks, at least one. -/
def padded (text : Text) : Text := text ++ List.replicate (max 1 (lineWidth - text.length)) ' '

/-- How a job goes, as far as the script knows. -/
def state (j : Job) : Text :=
  match j.ending? with
  | some ending => ending.title
  | none => "Running"

/-- The lines that show a job, where `mark` tells whether it is the current one or the one
before. -/
def lines (j : Job) (mark : Char) (numbered : Bool) : List Text :=
  let front : Text := '[' :: Text.ofInt j.number ++ "] " ++ [mark, ' ']
  let number (process : Nat) : Text := Text.ofInt process ++ [' ']
  if numbered then
    let first := padded (front ++ number j.first ++ state j)
    let others := j.processes.tail.map fun (process, _) =>
      padded (List.replicate front.length ' ' ++ number process)
    let whole := first :: others
    whole.dropLast.map (· ++ (" |" : Text)) ++ [whole.getLastD []]
  else [padded (front ++ state j) ++ (j.processes.tail.map fun _ => (" | " : Text)).flatten]

/-- The mark of a job among all jobs, the last one first. -/
def markIn (jobs : List Job) (j : Job) : Char :=
  match jobs.findIdx? (·.number = j.number) with
  | some 0 => '+'
  | some 1 => '-'
  | _ => ' '

/-- **Designation** — the job that a text stands for, or why there is none. -/
inductive Designation
  | job (j : Job)
  | noCurrent
  | noPrevious
  | unknown
  deriving DecidableEq, Repr

/-- The job that a text such as `%1` or `%+` stands for; the last one comes first. -/
def designated (jobs : List Job) (text : Text) : Designation :=
  match text with
  | '%' :: name =>
    if name = "" ∨ name = "+" ∨ name = "%" then
      match jobs with
      | j :: _ => .job j
      | [] => .noCurrent
    else if name = "-" then
      match jobs with
      | _ :: j :: _ => .job j
      | _ => .noPrevious
    else match jobs.find? fun j => number? name = some j.number with
      | some j => .job j
      | none => .unknown
  | _ => .unknown

end Job

end LineShell.Script
