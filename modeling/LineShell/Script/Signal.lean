/-
# LineShell.Script.Signal -- the signals by name and number

A signal has a number, and most have a name. Number zero stands for the end of the
script. A name may be written in small letters; a number stands for itself.
-/

import LineShell.Script.Bytes

namespace LineShell.Script.Signal

/-- The names of the signals, by number. -/
def names : List Text := List.map String.toList
  (["EXIT", "HUP", "INT", "QUIT", "ILL", "TRAP", "ABRT", "BUS", "FPE", "KILL", "USR1", "SEGV",
    "USR2", "PIPE", "ALRM", "TERM", "16", "CHLD", "CONT", "STOP", "TSTP", "TTIN", "TTOU",
    "URG", "XCPU", "XFSZ", "VTALRM", "PROF", "WINCH", "IO" , "PWR", "SYS", "32", "33",
    "RTMIN"]
  ++ (List.range 15).map (fun n => "RTMIN+" ++ toString (n + 1))
  ++ (List.range 14).map (fun n => "RTMAX-" ++ toString (14 - n))
  ++ ["RTMAX"])

/-! ## Signals with a part of their own -/

def interrupt : Nat := 2

def quit : Nat := 3

/-- A division whose quotient does not fit. -/
def floatingPoint : Nat := 8

/-- The signal that nothing can be done about. -/
def forced : Nat := 9

/-- More is nested than the memory holds. -/
def segmentation : Nat := 11

/-- Something is written into a pipe from which nobody reads. -/
def brokenPipe : Nat := 13

def termination : Nat := 15

/-- A process of the process has ended. -/
def child : Nat := 17

/-- What was halted goes on. -/
def continuing : Nat := 18

/-- The signal that halts whatever is done about it. -/
def halting : Nat := 19

/-- A file cannot grow. -/
def fileSize : Nat := 25

/-- Signals that do nothing unless they are caught. -/
def isHarmless (signal : Nat) : Bool :=
  signal = 0 || signal = child || signal = continuing || signal = 23 || signal = 28

/-- Signals that halt a process unless they are caught. -/
def isHalting (signal : Nat) : Bool := halting ≤ signal && signal ≤ 22

/-! ## Names -/

/-- The name of a signal. -/
def name (signal : Nat) : Text := names.getD signal []

/-- The signal of a number, as it is written. -/
def ofNumber? (text : Text) : Option Nat :=
  match number? text with
  | some n => if n < names.length then some n else none
  | none => none

/-- The signal that a text denotes, by number or by name. -/
def ofText? (text : Text) : Option Nat :=
  match number? text with
  | some _ => ofNumber? text
  | none => names.findIdx? (· = text.map Char.toUpper)

/-- How signals are described, by number. -/
def titles : List (Nat × Text) := List.map (fun (signal, title) => (signal, String.toList title))
  [(1, "Hangup"), (2, "Interrupt"), (3, "Quit"), (4, "Illegal instruction"),
   (5, "Trace/breakpoint trap"), (6, "Aborted"), (7, "Bus error"),
   (8, "Floating point exception"), (9, "Killed"), (10, "User defined signal 1"),
   (11, "Segmentation fault"), (12, "User defined signal 2"), (13, "Broken pipe"),
   (14, "Alarm clock"), (15, "Terminated"), (16, "Stack fault"),
   (24, "CPU time limit exceeded"), (25, "File size limit exceeded"),
   (26, "Virtual timer expired"), (27, "Profiling timer expired"), (29, "I/O possible"),
   (30, "Power failure"), (31, "Bad system call")]

/-- The first of the signals that have no meaning of their own. -/
def firstReal : Nat := 34

/-- How a signal is described. -/
def title (signal : Nat) : Text :=
  match titles.lookup signal with
  | some title => title
  | none =>
    if firstReal ≤ signal then "Real-time signal " ++ Text.ofInt (signal - firstReal : Nat)
    else "Unknown signal " ++ Text.ofInt signal

/-- What is said about a process that a signal ended; nothing about one that was asked to
stop, or whose output nobody reads. -/
def obituary (signal : Nat) : Text := if signal = 2 ∨ signal = 13 then [] else title signal

end LineShell.Script.Signal
