/-
# LineShell.Launcher.Table -- programs whose behaviour is given

A table says for each program, by the last name of its path, what comes of starting it:
either the start fails, or the program yields given texts on its streams, each ending or
failing, and exits with a given status. A program that is not in the table yields nothing
and exits with status zero. Starting one changes nothing in the directory tree. In which
order the two drains take turns is a parameter.
-/

import LineShell.Program

namespace LineShell

/-- The stream that yields the lines of a text. -/
def Stream.ofText (text : Text) (failure : Option SystemError) : Stream :=
  ⟨Text.lines text, failure⟩

/-- The program that does nothing. -/
def Child.silent : Child := ⟨⟨[], none⟩, ⟨[], none⟩, 0⟩

namespace Launcher

/-- **Table** — for the last name of a program's path, how its start fails or what it
does. -/
abbrev Table := List (Text × Except SystemError Child)

/-- What comes of starting the program at `executable`. -/
def Table.behaviour (table : Table) (executable : Text) : Except SystemError Child :=
  (table.lookup (Path.lastName executable)).getD (.ok Child.silent)

/-- The launcher that starts programs by a table and lets their drains take given
turns. -/
def ofTable (table : Table) (turns : Launch → List Channel) : Launcher where
  announce _ := []
  start t _ launch :=
    ((table.behaviour launch.executable).mapError Fault.system).map fun child => (child, t)
  turns := turns

/-! ## Small facts -/

section OfTable

variable {table : Table} {launch : Launch} (turns : Launch → List Channel) (t : Tree)
  (busy : List Location)

/-- A program of the table is started in any tree, whatever is open. -/
theorem start_ofTable_of_ok {child : Child} (h : table.behaviour launch.executable = .ok child) :
    (ofTable table turns).start t busy launch = .ok (child, t) := by
  simp only [ofTable, h]
  rfl

theorem start_ofTable_of_error {e : SystemError}
    (h : table.behaviour launch.executable = .error e) :
    (ofTable table turns).start t busy launch = .error (.system e) := by
  simp only [ofTable, h]
  rfl

end OfTable

end Launcher
end LineShell
