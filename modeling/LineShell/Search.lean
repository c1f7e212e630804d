/-
# LineShell.Search -- finding programs and directories

A search path is a text in which colons separate directories; blank directories do not
count. A command is looked up in them in order. The candidate of a directory is the
clean path of the command taken from it. The first candidate that names an executable
file, links followed, is the program. A candidate that cannot be asked for because one of
its names is too long ends the search with an error.

A directory is looked up by a path taken from a working directory; the answer is the
location that it names, written without links.
-/

import LineShell.State
import LineShell.Text.Classes
import LineShell.Tree.Follow

namespace LineShell
namespace Search

/-! ## Programs -/

/-- **Search directories** — the directories of a search path that are not blank. -/
def directories : Option Text → List Text
  | none => []
  | some path => (Text.pieces ':' path).filter (! Text.allBlank ·)

/-- The candidate of a directory for a command. -/
def candidate (command directory : Text) : CleanPath :=
  (CleanPath.ofPath directory).join (CleanPath.ofPath command)

/-- Whether a candidate names an executable file. Only a name that is too long makes
asking fail; a path that leads nowhere names no file. -/
def probe (t : Tree) (base : Location) (candidate : CleanPath) : Except SystemError Bool :=
  let path := candidate.toPath
  if path.contains '\x00' then .ok false
  else match t.locate base path with
    | .ok place =>
      match t.at? place with
      | some (.file _ executable) => .ok executable
      | _ => .ok false
    | .error .nameTooLong => .error ⟨.nameTooLong, some path⟩
    | .error _ => .ok false

/-- The first candidate that is a program. -/
def firstProgram (t : Tree) (base : Location) : List CleanPath →
    Except SystemError (Option CleanPath)
  | [] => .ok none
  | candidate :: rest =>
    match probe t base candidate with
    | .error e => .error e
    | .ok true => .ok (some candidate)
    | .ok false => firstProgram t base rest

/-- **Finding a program** — the absolute path of the program that a command names. -/
def program (t : Tree) (base : Location) (path : Option Text) (command : Text) :
    Except SystemError (Option Text) :=
  if Text.allBlank command then .ok none
  else
    (firstProgram t base ((directories path).map (candidate command))).map
      (·.map fun found => ((CleanPath.ofPath base.toPath).join found).toPath)

/-- The search path of a session: its own, or else the host's. -/
def pathOf (host : Host) (environment : Environment) : Option Text :=
  (environment.value? "PATH").or (host.environment.value? "PATH")

/-! ## Directories -/

/-- **Finding a directory** — the link-free path of the directory that `path` names from
the working directory `directory`. -/
def directory (t : Tree) (base : Location) (path directory : Text) : Option Text :=
  let wanted := Path.join directory path
  if wanted.contains '\x00' then none
  else match t.locate base wanted with
    | .ok place => if t.isDirectory place then some place.toPath else none
    | .error _ => none

/-! ## Small facts -/

/-- The search comes to nothing exactly if no candidate is a program and all can be asked
for. -/
theorem firstProgram_eq_none_iff {t : Tree} {base : Location} {candidates : List CleanPath} :
    firstProgram t base candidates = .ok none
      ↔ ∀ candidate ∈ candidates, probe t base candidate = .ok false := by
  induction candidates with
  | nil => simp [firstProgram]
  | cons candidate rest ih =>
    simp only [firstProgram, List.mem_cons, forall_eq_or_imp]
    split <;> simp_all

/-- Later candidates count only if the earlier ones come to nothing. -/
theorem firstProgram_append (t : Tree) (base : Location) (first second : List CleanPath) :
    firstProgram t base (first ++ second)
      = match firstProgram t base first with
        | .ok none => firstProgram t base second
        | found => found := by
  induction first with
  | nil => rfl
  | cons candidate rest ih =>
    simp only [List.cons_append, firstProgram]
    split <;> simp_all

end Search
end LineShell
