/-
# LineShell.Script.Run.Lookup -- where programs are found

A program is looked for in the directories of the search path, one after the other. A
process remembers in which of them it found a program, until the search path changes.
When the working directory changes, only directories with absolute paths are still known
to hold what was found in them.

A directory of functions holds files whose commands define the function that is looked
for.
-/

import LineShell.Script.Run.Processes
import LineShell.Script.SearchPath

namespace LineShell.Script.Step

/-- **Search** — how a name is looked for: with functions or without, and on which path
if it is not the process's own. -/
structure Search where
  functions : Bool
  path : Option Text
  deriving DecidableEq, Repr

/-- The usual search. -/
def Search.usual : Search := ⟨true, none⟩

/-- **Finding** — what a name turns out to call: a program in one of the directories, a
builtin that stands there, or a function defined there. -/
inductive Finding
  | program (index : Nat)
  | builtin
  | function (body : Command)
  | failed (cause : Cause)

/-- The process's own search path. -/
def ownPath : Step Text := return (← value? "PATH").getD []

/-- The path on which a search takes place. -/
def Search.pathOf (search : Search) : Step Text :=
  match search.path with
  | some path => return path
  | none => ownPath

/-- What stands at a path; a missing entry is no error. -/
def entryAt (path : Text) : Step (Except Cause (Option Entry)) := do
  let m ← get
  return match m.tree.locate m.process.directory (textOf path) with
    | .ok place => .ok (m.tree.at? place)
    | .error .noSuchFile | .error .notDirectory => .ok none
    | .error other => .error other

/-- The file at a path defines the function of a name. -/
def loadFunction (run : Runner) (name path : Text) : Step Command := do
  match ← openForReading path with
  | .ok index =>
    let _ ← runLines run false .nothing (.ofOpen index)
    change fun p => { p with skip := if p.skip = .function then .none else p.skip }
  | .error _ => pure ()
  match (← ask (·.functions)).lookup name with
  | some body => return body
  | none => fail (name ++ " not defined in " ++ path)

/-- The first of some directories in which a name is found; `index` is the number of the
first one, and `cause` is why the name was not found so far. Up to the directory `before`,
absolute ones are not looked at anew. -/
def searchFrom (run : Runner) (functions isBuiltin : Bool) (before : Option Nat) (name : Text) :
    Cause → Nat → List Shelf → Step Finding
  | cause, _, [] => return .failed cause
  | cause, index, shelf :: rest => do
    let next (cause : Cause) : Step Finding :=
      searchFrom run functions isBuiltin before name cause (index + 1) rest
    let path := shelf.path name
    if shelf.holding = .builtins then
      if isBuiltin then return .builtin else next cause
    else if shelf.holding = .functions ∧ ¬ functions then next cause
    else if Path.isAbsolute path ∧ before = some index then return .program index
    else if Path.isAbsolute path ∧ before.any (index < ·) then next cause
    else
      match ← entryAt path with
      | .error other => next other
      | .ok none => next cause
      | .ok (some (.file _ mayRun)) =>
        if shelf.holding = .functions then return .function (← loadFunction run name path)
        else if mayRun then return .program index
        else next .denied
      | .ok (some _) => next .denied

/-- The process remembers, or forgets, where a program is. -/
def noteKnown (name : Text) (known : Option Known) : Step Unit :=
  change fun p =>
    { p with
      known := match known with
        | some known => Bucket.put name known p.known
        | none => p.known.filter (·.1 ≠ name) }

/-- **Looking for a name** without slashes. What is found on the process's own path is
remembered. -/
def lookUp (run : Runner) (search : Search) (isBuiltin : Bool) (name : Text) :
    Step Finding := do
  let p ← ask id
  let hidden := ! search.functions && p.functions.any (·.1 = name)
  let remembers := search.path.isNone && ! hidden
  let known := if remembers then p.known.lookup name else none
  match known with
  | some ⟨index, false⟩ => return .program index
  | _ =>
    let finding ← searchFrom run search.functions isBuiltin (known.map (·.index)) name
      .noSuchFile 0 (SearchPath.shelves (← search.pathOf))
    if remembers then
      match finding with
      | .program index => noteKnown name (some ⟨index, false⟩)
      | _ => noteKnown name none
    return finding

/-- The path of a name in the directory with a number. -/
def pathAt (searchPath : Text) (index : Nat) (name : Text) : Text :=
  ((SearchPath.shelves searchPath)[index]?.map (Shelf.path · name)).getD name

end LineShell.Script.Step
