/-
# LineShell.CommandLine -- a command and its redirect clause

A command line may end in a redirect clause: an operator with white space before and
behind it, and behind that the target. `>` and `1>` send the command's output to the
target, `2>` its errors. A line is split at its last clause only; what looks like an
earlier clause stays in the command. The splitter does not know quotes: an operator
between quotation marks is one like any other.

White space around the parts does not belong to them. Neither the command nor the
target may hold a line feed, though the white space between them may.
-/

import LineShell.Text.Classes
import LineShell.Text.Quoted

namespace LineShell

/-- **Channel** — what a redirect clause redirects. -/
inductive Channel
  | output
  | error
  deriving DecidableEq, Repr

/-- **Command line** — a command and the targets that it redirects to. A split line has
at most one target. -/
structure CommandLine where
  command : Text
  output : Option Text
  error : Option Text
  deriving DecidableEq, Repr

namespace CommandLine

/-- A command without redirect targets. -/
def plain (command : Text) : CommandLine := ⟨command, none, none⟩

/-- A command with one redirect target. -/
def redirected (command : Text) : Channel → Text → CommandLine
  | .output, target => ⟨command, some target, none⟩
  | .error, target => ⟨command, none, some target⟩

/-- The command line has a target. -/
def isRedirected (line : CommandLine) : Bool := line.output.isSome || line.error.isSome

/-! ## Finding the clause -/

/-- The operator that a text begins with, and the text behind it. -/
def operator? : Text → Option (Channel × Text)
  | '>' :: rest => some (.output, rest)
  | '1' :: '>' :: rest => some (.output, rest)
  | '2' :: '>' :: rest => some (.error, rest)
  | _ => none

/-- The clause that begins at one position of a line: `before` is the line up to there
in reverse, `rest` is the line from there on. -/
def clauseAt (before rest : Text) : Option CommandLine :=
  match before, operator? rest with
  | blank :: _, some (channel, behind@(next :: _)) =>
    let command := (before.dropWhile Text.isBlank).reverse
    let target := behind.dropWhile Text.isBlank
    if Text.isBlank blank ∧ Text.isBlank next ∧ command ≠ [] ∧ target ≠ []
        ∧ '\n' ∉ command ∧ '\n' ∉ target then
      some (redirected command channel target)
    else none
  | _, _ => none

/-- The split at the last clause of a line, if it has one. -/
def lastClause? (before : Text) : Text → Option CommandLine
  | [] => none
  | c :: rest =>
    match lastClause? (c :: before) rest with
    | some split => some split
    | none => clauseAt before (c :: rest)

/-- **Splitting** — the command of a line and its last redirect clause, trimmed. -/
def ofLine (line : Text) : CommandLine :=
  let trimmed := Text.trim line
  (lastClause? [] trimmed).getD (plain trimmed)

/-! ## How a command line is shown -/

/-- The command line as diagnostics show it. -/
def shown (line : CommandLine) : Text :=
  "ParsedCommand(command=" ++ Text.quoted line.command
    ++ ", redirect_output=" ++ Text.quotedOption line.output
    ++ ", redirect_error=" ++ Text.quotedOption line.error ++ ")"

end CommandLine
end LineShell
