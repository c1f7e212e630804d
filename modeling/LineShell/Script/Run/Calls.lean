/-
# LineShell.Script.Run.Calls -- what the name of a command calls

The first word of a command is the name of a builtin, a function or a program. Some
builtins are special: an error in them ends the script, and they cannot be functions.
Other builtins come behind functions. A name with a slash in it always names a program.

Some builtins run commands themselves; they stand here, together with those that end a
loop, a function or the script.
-/

import LineShell.Script.Builtins.Limits
import LineShell.Script.Builtins.Place
import LineShell.Script.Builtins.Signals
import LineShell.Script.Builtins.Streams
import LineShell.Script.Run.Programs

namespace LineShell.Script.Step

/-! ## Builtins that run commands -/

/-- Runs the arguments as a text. -/
def evaluate (run : Runner) (tested : Bool) : Builtin := fun arguments => do
  if arguments = [] then return 0
  else runLines run tested .nothing (.ofText ([' '].intercalate arguments))

/-- The path of a file to be read as commands: on the search path, if it has no slash. -/
def sourcePath (name : Text) : Step Text := do
  if '/' ∈ name then return name
  let shelves := (SearchPath.shelves (← ownPath)).filter (·.holding ≠ .builtins)
  let found ← shelves.findM? fun shelf => do
    return match ← entryAt (shelf.path name) with
      | .ok (some (.file _ _)) => true
      | _ => false
  match found with
  | some shelf => return shelf.path name
  | none => fail (name ++ ": not found")

/-- Runs the commands in a file. -/
def source (run : Runner) : Builtin := fun arguments => do
  match (← options [] arguments).2 with
  | [] => return 0
  | name :: _ =>
    let path ← sourcePath name
    match ← openForReading path with
    | .error cause => fail ("cannot open " ++ path ++ ": " ++ reasonOf "No such file" cause)
    | .ok index =>
      change ({ · with command := some path })
      let status ← runLines run false .lines (.ofOpen index)
      change fun p => { p with skip := if p.skip = .function then .none else p.skip }
      return status

/-- The process becomes a program, if one is named. -/
def exec (run : Runner) : Builtin := fun arguments => do
  match arguments with
  | [] => return 0
  | name :: arguments =>
    execute run (← ownPath) 0 name arguments
    return 0

/-! ## Builtins that end something -/

/-- Ends the process. -/
def exit : Builtin := fun arguments => do
  match arguments with
  | status :: _ => setStatus (← natural status)
  | [] =>
    match ← ask (·.savedStatus) with
    | some status => setStatus status
    | none => pure ()
  stop .exited

/-- Ends the function or the file. -/
def leaveFunction : Builtin := fun arguments => do
  let status : Int ← match arguments with
    | status :: _ => do pure ((← natural status : Nat) : Int)
    | [] => ask (·.status)
  change ({ · with skip := .function })
  return status

/-- Leaves loops, or begins their next turn. -/
def leaveLoops (skip : Skip) : Builtin := fun arguments => do
  let count ← match arguments with
    | [] => pure 1
    | count :: _ => natural count
  if count = 0 then fail ("Illegal number: " ++ (arguments.headD []))
  let count := min count (← ask (·.loops))
  if 0 < count then change ({ · with skip, skipCount := count })
  return 0

/-! ## All builtins -/

/-- The builtins that are special. -/
def special (run : Runner) (tested : Bool) : List (Text × Builtin) :=
  [(".", source run), (":", fun _ => return 0), ("break", leaveLoops .loops),
   ("continue", leaveLoops .turn), ("eval", evaluate run tested), ("exec", exec run),
   ("exit", exit), ("export", mark "export" true), ("local", keep),
   ("readonly", mark "readonly" false), ("return", leaveFunction), ("set", setOptions),
   ("shift", shift), ("times", times), ("trap", trap), ("unset", unset)]

/-- The other builtins. -/
def regular : List (Text × Builtin) :=
  [("[", bracket), ("alias", giveAlias), ("bg", continueJob), ("cd", cd), ("chdir", cd),
   ("echo", echo), ("false", fun _ => return 1), ("fg", continueJob), ("getopts", getopts),
   ("jobs", jobs), ("kill", kill), ("printf", printf), ("pwd", pwd),
   ("read", read), ("test", test), ("true", fun _ => return 0),
   ("ulimit", ulimit), ("umask", umask), ("unalias", dropAlias),
   ("wait", wait)]

/-- The names of the builtins that look at names of commands themselves. -/
def naming : List Text := ["command", "hash", "type"]

/-- The builtins whose arguments may be assignments. -/
def assigning : List Text := ["alias", "export", "local", "readonly"]

/-! ## Descriptions -/

/-- **Target** — what a name calls, as far as that is known before it is looked for. -/
inductive Target
  | special (builtin : Builtin)
  | regular (builtin : Builtin)
  | naming
  | function (body : Command)
  | program (search : Search)

/-- The builtins in place of which programs may be found. -/
def replaceable : List Text := ["[", "echo", "hash", "printf", "test", "ulimit"]

/-- The builtin of a name. -/
def builtinOf? (run : Runner) (tested : Bool) (name : Text) : Option Target :=
  if '/' ∈ name then none
  else match (special run tested).lookup name, regular.lookup name with
    | some builtin, _ => some (.special builtin)
    | none, some builtin => some (.regular builtin)
    | none, none => if name ∈ naming then some .naming else none

/-- The builtin of a name, unless it has to be looked for on the search path. -/
def directBuiltin? (run : Runner) (tested : Bool) (name : Text) : Step (Option Target) := do
  if name ∈ replaceable ∧ SearchPath.precedesBuiltins (← ownPath) then return none
  else return builtinOf? run tested name

/-- What a name calls. -/
def targetOf (run : Runner) (tested : Bool) (name : Text) : Step Target := do
  match (← ask (·.functions)).lookup name with
  | some body => return .function body
  | none => return (← directBuiltin? run tested name).getD (.program .usual)

/-- Whether a file is at a path. -/
def isThere (path : Text) : Step Bool := do
  return match ← entryAt path with
    | .ok (some _) => true
    | _ => false

/-- What looking for a name gives that is not called by a builtin or a function. A name
with a slash in it has to be there. -/
def findingOf (run : Runner) (search : Search) (name : Text) : Step (Option Finding) := do
  if '/' ∈ name then return if ← isThere name then some (.program 0) else none
  let isBuiltin := (builtinOf? run false name).isSome
  match ← lookUp run search isBuiltin name with
  | .failed _ => return none
  | found => return some found

/-- A line about a name: what it calls, in words or in short. -/
def describe (run : Runner) (inWords : Bool) (path : Option Text) (name : Text) :
    Step Int := do
  let say (words : Text) : Step Int := put ((if inWords then words else name) ++ ['\n'])
  let sayBuiltin : Option Target → Step Int
    | some (.special _) => say " is a special shell builtin"
    | _ => say " is a shell builtin"
  let sayProgram (index : Nat) (isKnown : Bool) : Step Int := do
    let searchPath ← (Search.mk true path).pathOf
    let path := if '/' ∈ name then name else pathAt searchPath index name
    let how : Text := if isKnown then " is a tracked alias for " else " is "
    putLines [if inWords then how ++ path else path]
  if inWords then
    let _ ← put name
  let p ← ask id
  if name ∈ Reader.reservedWords then say " is a shell keyword"
  else match p.aliases.lookup name with
    | some text =>
      if inWords then say (" is an alias for " ++ text)
      else put ("alias " ++ aliasLine name text ++ ['\n'])
    | none =>
      let target ← targetOf run false name
      match target, if path.isNone then p.known.lookup name else none with
      | .function _, _ => say " is a shell function"
      | .program _, some known => sayProgram known.index true
      | .program search, none =>
        match ← findingOf run { search with path } name with
        | some (.program index) => sayProgram index false
        | some .builtin => sayBuiltin (builtinOf? run false name)
        | some (.function _) => say " is a shell function"
        | _ =>
          if inWords then
            let _ ← put ": not found\n"
          return 127
      | builtin, _ => sayBuiltin (some builtin)

/-- Describes names. -/
def type (run : Runner) : Builtin := fun names => do
  let statuses ← names.mapM (describe run true none)
  return if statuses.all (· = 0) then 0 else 127

/-- Shows where the programs are that were found. -/
def showKnown : Step Int := do
  let searchPath ← ownPath
  putLines ((Bucket.programs (← ask (·.known))).map fun (name, known) =>
    pathAt searchPath known.index name ++ if known.stale then ['*'] else [])

/-- Looks for programs ahead of time, or forgets those that were found. -/
def hash (run : Runner) : Builtin := fun arguments => do
  let (given, names) ← options "r" arguments
  if given ≠ [] then
    change ({ · with known := [] })
    return 0
  else if names = [] then showKnown
  else
    let statuses ← names.mapM fun name => do
      noteKnown name none
      match ← targetOf run false name with
      | .program search =>
        if '/' ∈ name then return (0 : Int)
        match ← lookUp run search (builtinOf? run false name).isSome name with
        | .failed cause =>
          warn (name ++ ": " ++ reasonOf "not found" cause)
          return 1
        | _ => return 0
      | _ => return 0
    return if statuses.all (· = 0) then 0 else 1

/-- Describes what the name behind the options calls. -/
def commandOptions (run : Runner) : Builtin := fun arguments => do
  let (given, names) ← options "pvV" arguments
  let path := if given.any (·.1 = 'p') then some SearchPath.usual else none
  let inWords := given.any (·.1 = 'V')
  match names with
  | name :: _ =>
    if inWords ∨ given.any (·.1 = 'v') then describe run inWords path name else return 0
  | [] => return 0

/-- The builtins that look at names of commands. -/
def namingBuiltin (run : Runner) (name : Text) : Builtin :=
  if name = "type" then type run
  else if name = "hash" then hash run
  else commandOptions run

end LineShell.Script.Step
