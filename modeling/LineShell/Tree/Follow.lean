/-
# LineShell.Tree.Follow -- from a path to a location

Following a path means taking its steps one after the other from a location. Every
step needs a directory to start from. Entering a name leads to what stands there;
where that is a symbolic link, the steps of the link's target are taken first, from the
root or from the directory that holds the link, and then the remaining ones. At most
`linkLimit` links are followed on the way, no name may be longer than `nameLimit` bytes,
and no path as a whole longer than `pathLimit` bytes.

Taking steps up to the next link is `advance`, a recursion on the steps. Its four
outcomes (`Progress`) are what every operation on paths starts from; `follow` goes on
after a link, by recursion on the number of links that may still be followed.
-/

import LineShell.SystemError
import LineShell.Text.Utf8
import LineShell.Tree.Basic

namespace LineShell

/-- How many symbolic links are followed for one path. -/
def linkLimit : Nat := 40

/-- How many bytes a name may have. -/
def nameLimit : Nat := 255

/-- How many bytes a path may have. -/
def pathLimit : Nat := 4095

/-- **Progress** — how far the steps of a path lead without following a link: all the
way to a location, to a name that is not there, to a link, or to a step that cannot be
taken. -/
inductive Progress
  | arrived (place : Location)
  | missing (directory : Location) (name : Text) (rest : List Path.Step)
  | atLink (directory : Location) (target : Text) (rest : List Path.Step)
  | blocked (cause : Cause)
  deriving DecidableEq, Repr

namespace Tree

/-- The steps taken from `here` up to the next link. -/
def advance (t : Tree) (here : Location) : List Path.Step → Progress
  | [] => .arrived here
  | step :: rest =>
    if t.isDirectory here then
      match step with
      | .stay | .slash => t.advance here rest
      | .up => t.advance here.tail rest
      | .enter name =>
        if nameLimit < Text.byteLength name then .blocked .nameTooLong
        else match t.at? (name :: here) with
          | none => .missing here name rest
          | some (.link target) => .atLink here target rest
          | some _ => t.advance (name :: here) rest
    else .blocked .notDirectory

/-- Where the steps of a path begin. -/
def origin (base : Location) (path : Text) : Location :=
  if Path.isAbsolute path then [] else base

/-- **Following** — the location that the steps lead to from `here`, following at most
`links` symbolic links. -/
def follow (t : Tree) (links : Nat) (here : Location) (path : List Path.Step) :
    Except Cause Location :=
  match t.advance here path with
  | .arrived place => .ok place
  | .missing _ _ _ => .error .noSuchFile
  | .blocked cause => .error cause
  | .atLink directory target rest =>
    match links with
    | 0 => .error .tooManyLinks
    | links + 1 => t.follow links (origin directory target) (Path.steps target ++ rest)

/-- **Locating** — what a path names when it is taken from `base`. The empty path names
nothing. -/
def locate (t : Tree) (base : Location) (path : Text) : Except Cause Location :=
  if path = [] then .error .noSuchFile
  else if pathLimit < Text.byteLength path then .error .nameTooLong
  else t.follow linkLimit (origin base path) (Path.steps path)

/-- A path with a NUL character names nothing that could be asked for. -/
def lookUp? (t : Tree) (base : Location) (path : Text) : Option Entry :=
  if path.contains '\x00' then none
  else match t.locate base path with
    | .ok place => t.at? place
    | .error _ => none

/-- The path names something. -/
def holds (t : Tree) (base : Location) (path : Text) : Bool :=
  (t.lookUp? base path).isSome

/-- The path names a directory. -/
def holdsDirectory (t : Tree) (base : Location) (path : Text) : Bool :=
  t.lookUp? base path = some .directory

/-! ## Small facts -/

theorem origin_of_isAbsolute {path : Text} (h : Path.isAbsolute path) (base : Location) :
    origin base path = [] := by
  simp [origin, h]

end Tree
end LineShell
