/-
# LineShell.State -- the state of a shell session and the process around it

A session has a working directory and variables. The working directory is a path as
written; only a change of directory replaces it. The variables never change.

The process that the shell runs in has a working directory and variables of its own. A
session falls back on them where its state leaves something open, and so paths that are not
absolute and a home directory that is not set are the host's.
-/

import LineShell.Environment
import LineShell.Tree.Basic

namespace LineShell

/-! ## Hosts -/

/-- **Host** — the process that the shell runs in: its working directory and its variables,
the home directory that the system has on record for its user, and how many missing directories
it can make inside one another at a time. -/
structure Host where
  directory : Location
  environment : Environment
  accountHome : Option Text
  nestingLimit : Nat
  deriving DecidableEq, Repr

/-- The user's home directory as the host knows it, from its variables or else from the
system's record, without slashes at the end. Without either a tilde stands for itself. -/
def Host.home (host : Host) : Text :=
  match (host.environment.value? "HOME").or host.accountHome with
  | none => ['~']
  | some home =>
    match (home.reverse.dropWhile (· = '/')).reverse with
    | [] => ['/']
    | home => home

/-! ## States -/

/-- **State** — the working directory and the variables of a session. -/
structure State where
  directory : Text
  environment : Environment
  deriving DecidableEq, Repr

namespace State

/-- The state of a session that starts where its host process stands. -/
def ofHost (host : Host) : State := ⟨host.directory.toPath, host.environment⟩

/-- The state with another working directory. -/
def inDirectory (state : State) (directory : Text) : State := { state with directory }

/-- The home directory: that of the session's variables, or else the host's. -/
def home (state : State) (host : Host) : Text :=
  (state.environment.value? "HOME").getD host.home

end State

/-- **Home expansion** — a leading tilde stands for the home directory. -/
def expandHome (home : Text) : Text → Text
  | '~' :: rest => home ++ rest
  | path => path

theorem expandHome_of_head {c : Char} (h : c ≠ '~') (home rest : Text) :
    expandHome home (c :: rest) = c :: rest := by
  unfold expandHome
  split
  · rename_i heq
    cases heq
    exact absurd rfl h
  · rfl

end LineShell
