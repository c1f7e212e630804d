/-
# LineShell.Log -- diagnostic messages and their levels

A diagnostic message has a level. It is printed if its own level is at most as verbose
as the limit that is set, on a line of its own, indented by two spaces for each step from
`error`. All other messages are dropped. No message has the level
`quiet`, so this limit drops them all.
-/

import LineShell.Text.Classes
import LineShell.Text.UpperCase
import LineShell.Text.Quoted

namespace LineShell

/-- **Level** — how verbose a message is, or may be at most. -/
inductive Level
  | quiet
  | error
  | warning
  | info
  | debug
  deriving DecidableEq, Repr

namespace Level

/-- The levels in order of increasing verbosity. -/
def all : List Level := [quiet, error, warning, info, debug]

def name : Level → Text
  | quiet => "QUIET"
  | error => "ERROR"
  | warning => "WARNING"
  | info => "INFO"
  | debug => "DEBUG"

/-- The place of a level in the order; errors stand at zero. -/
def verbosity : Level → Int
  | quiet => -1
  | error => 0
  | warning => 1
  | info => 2
  | debug => 3

/-- The level with a given name; case and surrounding white space do not matter. -/
def ofName? (text : Text) : Option Level :=
  all.find? (·.name = Text.upper (Text.trim text))

/-- Messages of level `level` are printed when `limit` is set. -/
def admits (limit level : Level) : Bool := level.verbosity ≤ limit.verbosity

/-- The indentation of messages. -/
def indentation (level : Level) : Text := List.replicate (2 * level.verbosity.toNat) ' '

/-- What is reported about a name that is no level. -/
def invalidNameMessage (text : Text) : Text :=
  "Invalid log level: " ++ text ++ ". Valid levels: " ++ Text.quotedList (all.map name)

theorem mem_all (level : Level) : level ∈ all := by cases level <;> decide

theorem admits_trans {a b c : Level} (h : a.admits b) (h' : b.admits c) : a.admits c := by
  simp only [admits, decide_eq_true_eq] at *
  omega

end Level

/-- **Message** — a diagnostic text with its level. -/
structure Message where
  level : Level
  text : Text
  deriving DecidableEq, Repr

namespace Message

/-- The message as a line of its own. -/
def line (m : Message) : Text := m.level.indentation ++ m.text ++ ['\n']

/-- The message as printed when `limit` is set: one line, or nothing. -/
def printed (limit : Level) (m : Message) : Text :=
  if limit.admits m.level then m.line else []

end Message

end LineShell
