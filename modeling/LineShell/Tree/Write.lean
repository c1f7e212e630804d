/-
# LineShell.Tree.Write -- making directories and opening files

Three operations change a tree. A directory is made under an existing parent; the last
name of its path must not stand there, not even as a link. The missing directories of a
path are made from the outermost one inwards; what has been made stays when a later one
fails. A file is opened for writing: it is made if it is missing, also where a link
points to a missing file, and emptied if it is there.

An operation runs in the monad `TreeAction`, which keeps the tree when it fails.
-/

import LineShell.Tree.Follow

namespace LineShell

/-- **Tree action** — an operation that may change the tree and may fail; a failure
keeps the changes made before it. -/
abbrev TreeAction (α : Type) := ExceptT Fault (StateM Tree) α

/-- **Handle** — a file opened for writing: a regular file at a location, or a device. -/
inductive Handle
  | file (place : Location)
  | device (device : Device)
  deriving DecidableEq, Repr

namespace Tree

/-! ## One directory -/

/-- The location at which a directory path puts its directory. A path that does not end
in a name cannot make one: it names what is there already. -/
def placeForDirectory (t : Tree) (base : Location) (path : Text) : Except Cause Location :=
  if pathLimit < Text.byteLength path then .error .nameTooLong
  else match ((Path.steps path).filter (· ≠ .slash)).reverse with
  | .enter name :: outer =>
    match t.follow linkLimit (origin base path) (outer.reverse ++ [.stay]) with
    | .error cause => .error cause
    | .ok parent =>
      if nameLimit < Text.byteLength name then .error .nameTooLong
      else if (t.at? (name :: parent)).isSome then .error .fileExists
      else .ok (name :: parent)
  | path' =>
    match t.follow linkLimit (origin base path) (path'.reverse ++ [.stay]) with
    | .error cause => .error cause
    | .ok _ => .error .fileExists

/-- Makes the directory named by a path. -/
def makeDirectory (base : Location) (path : Text) : TreeAction Unit := do
  if path.contains '\x00' then throw .embeddedNul
  match (← get).placeForDirectory base path with
  | .error cause => throw (.about cause path)
  | .ok place => modify (·.put place .directory)

/-! ## All directories of a path -/

/-- A failure because something stands there already is left to the next operation to
find out. -/
def ignoringExisting (action : TreeAction Unit) : TreeAction Unit :=
  tryCatch action fun fault =>
    match fault with
    | .system ⟨.fileExists, _⟩ => pure ()
    | _ => throw fault

/-- A failure to make a directory does not matter where a directory is. -/
def makeDirectoryUnlessThere (base : Location) (path : Text) : TreeAction Unit :=
  tryCatch (makeDirectory base path) fun fault => do
    match fault with
    | .system _ => if (← get).holdsDirectory base path then pure () else throw fault
    | _ => throw fault

/-- **Making directories** — makes the directory named by a path after the missing ones above
it, `depth` directories in all at most; if more are missing, none is made. A path that ends in
`.` is done when the directory above is. -/
def makeDirectoriesWithin (base : Location) : Nat → Text → TreeAction Unit
  | 0, _ => throw .tooDeep
  | depth + 1, path => do
    let (above, name) :=
      if Path.lastName path = [] then Path.splitLast (Path.directoryPart path)
      else Path.splitLast path
    if above ≠ [] ∧ name ≠ [] ∧ ¬ (← get).holds base above then
      ignoringExisting (makeDirectoriesWithin base depth above)
      if name = ['.'] then pure () else makeDirectoryUnlessThere base path
    else makeDirectoryUnlessThere base path

/-! ## Opening for writing -/

/-- The steps to a file that is to be made. A slash behind the last name asks for a
directory, which opening cannot make, so only the way to its parent counts. -/
def stepsToFile (path : List Path.Step) : List Path.Step :=
  match path.reverse with
  | .slash :: .enter _ :: outer => outer.reverse ++ [.stay]
  | _ => path

/-- The location of a file to be opened for writing, links followed to the end; it may
be missing itself. -/
def placeForFile (t : Tree) (links : Nat) (here : Location) (path : List Path.Step) :
    Except Cause Location :=
  match t.advance here (stepsToFile path) with
  | .arrived place => .ok place
  | .missing directory name [] => .ok (name :: directory)
  | .missing _ _ _ => .error .noSuchFile
  | .blocked cause => .error cause
  | .atLink directory target rest =>
    match links with
    | 0 => .error .tooManyLinks
    | links + 1 => t.placeForFile links (origin directory target) (Path.steps target ++ rest)

/-- **Opening** — makes or empties the file named by a path. -/
def openFile (base : Location) (path : Text) : TreeAction Handle := do
  if path.contains '\x00' then throw .embeddedNul
  if path = [] then throw (.about .noSuchFile path)
  if pathLimit < Text.byteLength path then throw (.about .nameTooLong path)
  let t ← get
  match t.placeForFile linkLimit (origin base path) (Path.steps path) with
  | .error cause => throw (.about cause path)
  | .ok place =>
    match t.at? place with
    | none => do
      set (t.put place (.file [] false))
      pure (.file place)
    | some (.file _ executable) => do
      set (t.put place (.file [] executable))
      pure (.file place)
    | some (.device .terminal) => throw (.about .noDevice path)
    | some (.device device) => pure (.device device)
    | some _ => throw (.about .isDirectory path)

/-- The tree after `text` has been written over the beginning of the file at a location,
of which `early` bytes got there before the file was last changed. -/
def writeFile (t : Tree) (place : Location) (early : Nat) (text : Text) : Tree :=
  match t.at? place with
  | some (.file held executable) =>
    t.put place (.file (Text.overlay early text held) executable)
  | _ => t

end Tree
end LineShell
