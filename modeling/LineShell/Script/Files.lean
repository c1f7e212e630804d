/-
# LineShell.Script.Files -- the files that a script uses

A script opens files of the tree, asks what stands at a path, and finds the paths that fit
a pattern. Paths are taken from the process's directory. What cannot be opened is reported with the reason; a path to a file
that is missing has a wording of its own, which depends on whether the file was to be
read, written or run.
-/

import LineShell.Script.Bindings
import LineShell.Script.Condition

namespace LineShell

namespace Tree

/-- The names that stand in a directory, in no order and without repetition. -/
def namesIn (t : Tree) (place : Location) : List Text :=
  (t.entries.filterMap fun ((_, other), _) =>
    match other with
    | name :: above => if above = place then some name else none
    | [] => none).eraseDups

/-- A path names a symbolic link. -/
def holdsLink (t : Tree) (base : Location) (path : Text) : Bool :=
  match (Path.steps path).reverse with
  | .enter name :: outer =>
    match t.follow linkLimit (origin base path) (outer.reverse ++ [.stay]) with
    | .ok parent =>
      match t.at? (name :: parent) with
      | some (.link _) => true
      | _ => false
    | .error _ => false
  | _ => false

end Tree

namespace Script

/-- The wording of a cause, where a missing file has its own. -/
def reasonOf (missing : Text) : Cause → Text
  | .noSuchFile | .notDirectory => missing
  | cause => bytesOf cause.reason

namespace Step

/-- The location that a path names. -/
def locate (path : Text) : Step (Except Cause Location) := do
  let m ← get
  return m.tree.locate m.process.directory (textOf path)

/-! ## Opening -/

/-- **Reached** — what an opening is about: a file that is open already, or a location. -/
inductive Reached
  | opened (index : Nat)
  | place (place : Location)

/-- What a location comes to for an opening. A file of the tree that a descriptor stands
for is opened anew. -/
def reach (access : Access) (place : Location) : Step (Except Cause Reached) := do
  match (← get).tree.at? place with
  | some (.device .terminal) => return .error .noDevice
  | some (.device (.descriptor number)) =>
    match ← openFile? number with
    | none => return .error .noSuchFile
    | some (index, .file content _ _) =>
      match (← get).contents[content]? with
      | some content => return .ok (.place content.place)
      | none => return .ok (.opened index)
    | some (index, _) => return .ok (.opened index)
  | some (.device device) => return .ok (.opened (← addFile (.device device access)))
  | _ => return .ok (.place place)

/-- The number of the bytes of the file at a location. -/
def contentAt (place : Location) : Step Nat := do
  let m ← get
  match m.contents.findIdx? (·.place = place) with
  | some content => return content
  | none =>
    let text := match m.tree.at? place with
      | some (.file text _) => text
      | _ => []
    let content := m.contents.size
    modify fun m => { m with contents := m.contents.push (.ofText place text) }
    return content

/-- A file that is there is opened for reading. -/
def openForReading (path : Text) : Step (Except Cause Nat) := do
  match ← locate path with
  | .error cause => return .error cause
  | .ok place =>
    match ← reach .read place with
    | .error cause => return .error cause
    | .ok (.opened index) => return .ok index
    | .ok (.place place) =>
      if (← get).tree.isDirectory place then return .ok (← addFile .directory)
      else return .ok (← addFile (.file (← contentAt place) 0 .read))

/-- A file is opened for writing; it is made if it is missing, and emptied if the access
asks for that. -/
def openForWriting (access : Access) (path : Text) : Step (Except Cause Nat) := do
  let m ← get
  let name := textOf path
  if path = [] then return .error .noSuchFile
  if pathLimit < path.length then return .error .nameTooLong
  match m.tree.placeForFile linkLimit (Tree.origin m.process.directory name)
      (Path.steps name) with
  | .error cause => return .error cause
  | .ok place =>
    match ← reach access place with
    | .error cause => return .error cause
    | .ok (.opened index) => return .ok index
    | .ok (.place place) =>
      match m.tree.at? place with
      | some (.file _ _) =>
        if access = .write ∧ (← hasOption 'C') then return .error .fileExists
      | none => modify fun m => { m with tree := m.tree.put place (.file [] false) }
      | some _ => return .error .isDirectory
      let content ← contentAt place
      if access = .write ∨ access = .force then
        modify fun m => { m with contents := m.contents.modify content (·.clear) }
      return .ok (← addFile (.file content 0 access))

/-- An opening for writing that fails would not have made a file: the script keeps the files
that are there, and at the path there is something other than a file. -/
def findsOther (access : Access) (path : Text) (cause : Cause) : Step Bool := do
  if access ≠ .write ∨ ¬ (← hasOption 'C') then return false
  match cause, ← locate path with
  | .isDirectory, .ok _ | .noDevice, .ok _ => return true
  | _, _ => return false

/-- A file is opened as a redirect asks, or that fails with a message. -/
def openFor (access : Access) (path : Text) : Step Nat := do
  if access = .read then
    match ← openForReading path with
    | .ok index => return index
    | .error cause => fail ("cannot open " ++ path ++ ": " ++ reasonOf "No such file" cause)
  else
    match ← openForWriting access path with
    | .ok index => return index
    | .error cause =>
      let verb : Text := if ← findsOther access path cause then "open" else "create"
      fail ("cannot " ++ verb ++ ' ' :: path ++ ": " ++ reasonOf "Directory nonexistent" cause)

/-! ## Tests -/

/-- What holds of an open file that is none of the tree. -/
def holdsOpen (letter : Char) : OpenFile → Bool
  | .document _ | .collector _ | .outlet _ _ | .inlet _ => letter ∈ ("eprwOG" : Text)
  | .device _ _ => letter ∈ ("cerwOG" : Text)
  | .directory => letter ∈ ("derwxsOG" : Text)
  | .file _ _ _ => false

/-- What holds of the entry at a location, where the bytes of some files have changed. -/
def holdsAt (m : Machine) (letter : Char) (place : Location) : Bool :=
  match letter, m.tree.at? place with
  | _, none => false
  | 'f', some (.file _ _) => true
  | 'd', some .directory => true
  | 'c', some (.device _) => true
  | 'x', some .directory => true
  | 'x', some (.file _ executable) => executable
  | 's', some .directory => true
  | 's', some (.file text _) =>
    match m.content? place with
    | some content => ! content.bytes.isEmpty
    | none => text ≠ []
  | letter, some _ => letter ∈ ("erwOG" : Text)

/-- What holds of the files of a tree and of what descriptors stand for. -/
def fileTests (m : Machine) : FileTests where
  one letter path :=
    if letter = 'h' ∨ letter = 'L' then m.tree.holdsLink m.process.directory (textOf path)
    else match m.tree.locate m.process.directory (textOf path) with
      | .error _ => false
      | .ok place =>
        match m.tree.at? place with
        | some (.device (.descriptor number)) =>
          match (m.process.descriptors.lookup number).bind (m.files[·]?) with
          | some (.file content _ _) =>
            (m.contents[content]?.map fun c => holdsAt m letter c.place).getD false
          | some file => holdsOpen letter file
          | none => false
        | _ => holdsAt m letter place
  two operator first second :=
    match m.tree.locate m.process.directory (textOf first),
      m.tree.locate m.process.directory (textOf second) with
    | .ok a, .ok b => operator = "-ef" && a = b
    | _, _ => false

/-! ## Patterns in paths -/

/-- The bytes of one text come before those of another. -/
def precedesOrEqual (a b : Text) : Bool := ! Condition.precedes b a

/-- The names in a directory that a pattern fits. A name that begins with a dot needs a
pattern that does so, too. -/
def namesFitting (t : Tree) (place : Location) (pattern : Pattern) : List Text :=
  let names := ['.'] :: ['.', '.'] :: (t.namesIn place).map bytesOf
  let hidden := pattern.head?.map (·.char) = some '.'
  names.filter fun name => (hidden || name.head? ≠ some '.') && pattern.fits name

/-- The letters of a pattern up to the next slash, the slashes there, and the rest. -/
def cutAtSlash (pattern : Pattern) : Pattern × Pattern × Pattern :=
  let name := pattern.takeWhile (·.char ≠ '/')
  let behind := pattern.drop name.length
  let slashes := behind.takeWhile (·.char = '/')
  (name, slashes, behind.drop slashes.length)

/-- The paths that a pattern fits behind a path that is settled. -/
def pathsWithin (m : Machine) : Nat → Text → Pattern → List Text
  | 0, _, _ => []
  | fuel + 1, settled, pattern =>
    let exists? (path : Text) : Bool :=
      (m.tree.lookUp? m.process.directory (textOf path)).isSome
        || m.tree.holdsLink m.process.directory (textOf path)
    let (name, slashes, rest) := cutAtSlash pattern
    let next (name : Text) : List Text :=
      let settled := settled ++ name ++ slashes.toText
      if rest = [] then (if exists? settled then [settled] else [])
      else pathsWithin m fuel settled rest
    if name.isOpen then
      let directory : Text := if settled = [] then ['.'] else settled
      match m.tree.locate m.process.directory (textOf directory) with
      | .ok place =>
        if m.tree.isDirectory place then (namesFitting m.tree place name).flatMap next
        else []
      | .error _ => []
    else next name.toText

/-- The paths that a pattern fits, in order; a pattern that fits none stands for itself. -/
def paths (pattern : Pattern) : Step (List Text) := do
  let meant := pattern.unescaped
  if ¬ meant.isOpen ∨ (← hasOption 'f') then return [pattern.toText]
  match pathsWithin (← get) (meant.length + 1) [] meant with
  | [] => return [pattern.toText]
  | found => return found.mergeSort precedesOrEqual

end Step
end Script
end LineShell
