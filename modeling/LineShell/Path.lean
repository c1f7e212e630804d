/-
# LineShell.Path -- paths as they are written

A path is a text in which slashes separate names. This module holds what can be said
about a path without looking at a directory tree: whether it is absolute, how it is
taken from a directory, what its directory part is, and which steps it asks for.

Two ways of putting paths together are needed. `join` keeps both texts as they are
written. A `CleanPath` forgets empty names, `.` names and slashes at the end, and keeps
`..`; programs are looked up, named and shown in that form.
-/

import LineShell.Text.Basic

namespace LineShell

namespace Path

/-! ## Written paths -/

def isAbsolute (path : Text) : Bool := path.head? = some '/'

/-- `path` taken from `directory`, unless it is absolute. -/
def join (directory path : Text) : Text :=
  if isAbsolute path then path
  else if directory = [] ∨ directory.getLast? = some '/' then directory ++ path
  else directory ++ '/' :: path

theorem join_of_isAbsolute {path : Text} (h : isAbsolute path) (directory : Text) :
    join directory path = path := by
  simp [join, h]

/-- Slashes at the end are dropped from a directory part that is not all slashes. -/
def withoutEndSlashes (directory : Text) : Text :=
  if directory.all (· = '/') then directory
  else (directory.reverse.dropWhile (· = '/')).reverse

/-- **Splitting a path** — its directory part and what stands behind the last slash. -/
def splitLast (path : Text) : Text × Text :=
  let name := (path.reverse.takeWhile (· ≠ '/')).reverse
  let directory := (path.reverse.dropWhile (· ≠ '/')).reverse
  (withoutEndSlashes directory, name)

/-- The directory part of a path. -/
def directoryPart (path : Text) : Text := (splitLast path).1

/-- What stands behind the last slash. -/
def lastName (path : Text) : Text := (splitLast path).2

/-! ## Steps -/

/-- **Step** — one move that a path asks for: entering a name, going up, staying, or
the slash at the end, which asks that a directory has been reached. -/
inductive Step
  | enter (name : Text)
  | up
  | stay
  | slash
  deriving DecidableEq, Repr

def Step.ofName (name : Text) : Step :=
  if name = ['.'] then .stay
  else if name = ['.', '.'] then .up
  else .enter name

/-- The steps that a path asks for, in order. -/
def steps (path : Text) : List Step :=
  ((Text.pieces '/' path).filter (· ≠ [])).map Step.ofName
    ++ if path.getLast? = some '/' then [.slash] else []

end Path

/-! ## Clean paths -/

/-- **Clean path** — a path without empty names, `.` names and slashes at the end. The
root is empty for a relative path, and one slash or two for an absolute one. -/
structure CleanPath where
  root : Text
  names : List Text
  deriving DecidableEq, Repr

namespace CleanPath

/-- Exactly two slashes at the front are kept as two; any other number counts as one. -/
def rootOf (path : Text) : Text :=
  match (path.takeWhile (· = '/')).length with
  | 0 => []
  | 2 => ['/', '/']
  | _ => ['/']

def ofPath (path : Text) : CleanPath where
  root := rootOf path
  names := (Text.pieces '/' path).filter fun name => name ≠ [] ∧ name ≠ ['.']

/-- `path` taken from `directory`, unless it is absolute. -/
def join (directory path : CleanPath) : CleanPath :=
  if path.root = [] then { directory with names := directory.names ++ path.names } else path

/-- The path as it is written. -/
def toPath (path : CleanPath) : Text :=
  if path.root = [] ∧ path.names = [] then ['.']
  else path.root ++ ['/'].intercalate path.names

theorem join_of_root_ne_nil {path : CleanPath} (h : path.root ≠ []) (directory : CleanPath) :
    directory.join path = path := by
  simp [join, h]

end CleanPath
end LineShell
