/-
# LineShell.CommandLine.Clause -- lines taken apart at a redirect clause

A line can be taken apart at a redirect clause in several ways, since it may have several
operators and the white space at the ends of the command and of the target may be counted
to them or not. A `Clause` is one such way. `Clause.written` is the line, and
`Clause.split` is what it comes to as a command line.

Splitting agrees with the clauses: a clause is found at its position, and the white space at
the ends of the command and of the target is counted to the gaps (`clauseAt_written`).

A split line can be written out again with a single space in every gap (`written`).
-/

import LineShell.CommandLine

namespace LineShell

/-- **Operator** — the ways to begin a redirect clause. -/
inductive Operator
  | output
  | numberedOutput
  | error
  deriving DecidableEq, Repr

namespace Operator

def written : Operator → Text
  | output => ">"
  | numberedOutput => "1>"
  | error => "2>"

/-- What the operator redirects. -/
def channel : Operator → Channel
  | output | numberedOutput => .output
  | error => .error

end Operator

namespace CommandLine

theorem operator?_written (operator : Operator) (rest : Text) :
    operator? (operator.written ++ rest) = some (operator.channel, rest) := by
  cases operator <;> rfl

/-- **Clause** — a line taken apart: the command, the operator and the target, with the
gaps on both sides of the operator. -/
structure Clause where
  command : Text
  gap : Text
  operator : Operator
  secondGap : Text
  target : Text

namespace Clause

/-- The line. -/
def written (c : Clause) : Text :=
  c.command ++ c.gap ++ c.operator.written ++ c.secondGap ++ c.target

/-- Where the operator stands in the line. -/
def position (c : Clause) : Nat := (c.command ++ c.gap).length

/-- What the line comes to at this clause. -/
def split (c : Clause) : CommandLine :=
  redirected (Text.trim c.command) c.operator.channel (Text.trim c.target)

/-- **Proper** — the gaps are white space and not empty; the command and the target are
not empty and hold no line feed. -/
structure IsProper (c : Clause) : Prop where
  gap_ne_nil : c.gap ≠ []
  gap_blank : Text.allBlank c.gap
  secondGap_ne_nil : c.secondGap ≠ []
  secondGap_blank : Text.allBlank c.secondGap
  command_ne_nil : c.command ≠ []
  target_ne_nil : c.target ≠ []
  command_single : '\n' ∉ c.command
  target_single : '\n' ∉ c.target

end Clause

/-- The line has a proper clause whose operator stands at `position`. -/
def HasClauseAt (line : Text) (position : Nat) : Prop :=
  ∃ c : Clause, c.IsProper ∧ c.written = line ∧ c.position = position

/-! ## Finding a clause at its position -/

theorem dropWhile_blank_append {gap : Text} (h : Text.allBlank gap) (rest : Text) :
    (gap ++ rest).dropWhile Text.isBlank = rest.dropWhile Text.isBlank := by
  induction gap with
  | nil => rfl
  | cons c more ih =>
    simp only [Text.allBlank, List.all_cons, Bool.and_eq_true] at h
    simp [h.1, ih h.2]

/-- A proper clause is found at its position, unless trimming leaves nothing of the command
or of the target. White space between them and the operator is trimmed away. -/
theorem clauseAt_written {c : Clause} (h : c.IsProper)
    (hcommand : Text.trimEnd c.command ≠ []) (htarget : Text.trimStart c.target ≠ []) :
    clauseAt (c.command ++ c.gap).reverse (c.operator.written ++ (c.secondGap ++ c.target))
      = some (redirected (Text.trimEnd c.command) c.operator.channel
          (Text.trimStart c.target)) := by
  obtain ⟨blank, more, hgap⟩ := List.exists_cons_of_ne_nil
    (fun e => h.gap_ne_nil (List.reverse_eq_nil_iff.1 e))
  obtain ⟨next, others, hsecond⟩ := List.exists_cons_of_ne_nil h.secondGap_ne_nil
  have hblank : Text.isBlank blank := by
    have hm : blank ∈ c.gap := List.mem_reverse.1 (by rw [hgap]; simp)
    exact List.all_eq_true.1 h.gap_blank _ hm
  have hnext : Text.isBlank next := by
    have hm : next ∈ c.secondGap := by rw [hsecond]; simp
    exact List.all_eq_true.1 h.secondGap_blank _ hm
  have hback : ((c.command ++ c.gap).reverse.dropWhile Text.isBlank).reverse
      = Text.trimEnd c.command := by
    rw [List.reverse_append, dropWhile_blank_append (by simpa [Text.allBlank] using h.gap_blank)]
    rfl
  have hahead : (c.secondGap ++ c.target).dropWhile Text.isBlank = Text.trimStart c.target :=
    dropWhile_blank_append h.secondGap_blank _
  have hcommandSingle : '\n' ∉ Text.trimEnd c.command := fun hm => h.command_single
    (List.mem_reverse.1 ((List.dropWhile_sublist _).subset (List.mem_reverse.1 hm)))
  have htargetSingle : '\n' ∉ Text.trimStart c.target := fun hm => h.target_single
    ((List.dropWhile_sublist _).subset hm)
  have hbefore : (c.command ++ c.gap).reverse = blank :: (more ++ c.command.reverse) := by
    rw [List.reverse_append, hgap, List.cons_append]
  have hbehind : c.secondGap ++ c.target = next :: (others ++ c.target) := by
    rw [hsecond, List.cons_append]
  rw [hbefore, hbehind]
  simp only [clauseAt, operator?_written]
  rw [← hbefore, ← hbehind, hback, hahead]
  simp [hblank, hnext, hcommand, htarget, hcommandSingle, htargetSingle]

/-! ## Writing a split line -/

/-- The line that a split command line is written as; `operator` is used for an output
target. -/
def written (line : CommandLine) (operator : Operator) : Text :=
  match line.output, line.error with
  | some target, _ => line.command ++ ' ' :: (operator.written ++ ' ' :: target)
  | none, some target => line.command ++ ' ' :: (Operator.error.written ++ ' ' :: target)
  | none, none => line.command

theorem written_plain (command : Text) (operator : Operator) :
    (plain command).written operator = command := rfl

end CommandLine
end LineShell
