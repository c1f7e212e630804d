/-
# LineShell.Script.Run.Simple -- simple commands

A simple command is carried out in five steps: its words are expanded; the words of its
redirects are; the descriptors change; its variables get their values; what its first
word names is called. Without words only the variables and the descriptors matter.

The variables keep their values behind a special builtin and behind a command without
words. Otherwise only what is called sees them.
-/

import LineShell.Script.Run.Calls
import LineShell.Script.Run.Redirects

namespace LineShell.Script.Step

/-! ## Words -/

/-- The arguments that a word stands for; behind some builtins it may be an assignment,
which is one argument. -/
def expandArgument (capture : Capture) (assigns : Bool) (word : Word) : Step (List Text) := do
  match if assigns then assignment? word else none with
  | some (name, value) =>
    return [name ++ '=' :: (← expandText capture Mode.assigned value)]
  | none => expandFields capture word

/-- The arguments behind others may be assignments, if that is known; `name` tells whether
the others begin with the name of what is called. Behind `command` and its options another
name comes. -/
def assigns? (name : Bool) : List Text → Option Bool
  | [] => none
  | first :: rest =>
    if first = "command" then assigns? false rest
    else if name then some (first ∈ assigning)
    else match first with
      | ['-', '-'] => assigns? true rest
      | '-' :: letter :: letters =>
        if (letter :: letters).all (· = 'p') then assigns? false rest else some false
      | _ => some (first ∈ assigning)

/-- The arguments that words stand for, behind those that are expanded already. -/
def expandArguments (capture : Capture) (expanded : List Text) :
    List Word → Step (List Text)
  | [] => return expanded
  | word :: rest => do
    let isFunction := (← ask (·.functions)).any fun (name, _) => expanded.head? = some name
    match if isFunction then some false else assigns? true expanded with
    | some assigns =>
      return expanded ++ (← (word :: rest).mapM (expandArgument capture assigns)).flatten
    | none => expandArguments capture (expanded ++ (← expandFields capture word)) rest

/-! ## Calls -/

/-- A builtin is done: what it has put is written, or its status tells that this failed. -/
def conclude (name : Text) (status : Int) : Step Unit := do
  if ← flush then setStatus status
  else
    warn (name ++ ": I/O error")
    setStatus (Int.ofNat (status.toNat ||| 1))

/-- A builtin runs. An error in one that is not special only sets the status. -/
def callBuiltin (isSpecial : Bool) (name : Text) (builtin : Builtin) (arguments : List Text) :
    Step Unit := do
  let before ← ask (·.command)
  change ({ · with command := some name })
  tryCatch (do conclude name (← builtin arguments)) fun why => do
    if why = .failed ∨ why = .exited then
      let _ ← flush
    change ({ · with command := before })
    if why = .failed ∧ ¬ isSpecial then return () else throw why
  change ({ · with command := before })

/-- How many calls of functions may be inside one another. -/
def callLimit : Nat := 1000

/-- A function runs with arguments of its own. -/
def callFunction (run : Runner) (tested : Bool) (body : Command) (arguments : List Text) :
    Step Unit := do
  let before ← ask id
  if callLimit ≤ before.depth then
    fail ("Maximum function recursion depth (" ++ Text.ofInt callLimit ++ ") reached")
  let restore : Step Unit := change fun p =>
    { p with
      parameters := before.parameters
      optionIndex := before.optionIndex
      optionOffset := before.optionOffset
      loops := before.loops
      depth := before.depth }
  change fun p => { p with depth := p.depth + 1, loops := 0 }
  setParameters arguments
  tryCatch (run tested body) fun why => do
    restore
    throw why
  restore
  change fun p => { p with skip := if p.skip = .function then .none else p.skip }

/-- **Call** — what a command calls, with its arguments; nothing, if it has no words. -/
inductive Call
  | nothing
  | called (name : Text) (target : Target) (arguments : List Text)

/-- The call that arguments make. The word `command` in front passes functions over and
makes builtins less special. -/
def callOf (run : Runner) (tested : Bool) : List Text → Step Call
  | [] => return .nothing
  | name :: arguments => do
    let target ← targetOf run tested name
    match target with
    | .naming =>
      if name = "command" then behind arguments none true arguments
      else return .called name target arguments
    | _ => return .called name target arguments
where
  /-- The call behind `command`, which may be given options; one of them asks for the usual
  search path. The name that follows is that of no function. -/
  behind (given : List Text) (path : Option Text) (options : Bool) : List Text → Step Call
    | [] => return .called "command" .naming given
    | word :: rest => do
      match if options then word else [] with
      | ['-', '-'] => behind given path false rest
      | '-' :: letter :: letters =>
        if (letter :: letters).all (· = 'p') then behind given SearchPath.usual true rest
        else return .called "command" .naming given
      | _ =>
        match ← directBuiltin? run tested word with
        | some (.special builtin) | some (.regular builtin) =>
          return .called word (.regular builtin) rest
        | some .naming =>
          if word = "command" then behind rest path true rest
          else return .called word .naming rest
        | some target => return .called word target rest
        | none => return .called word (.program ⟨false, path⟩) rest

/-- What is called runs; a name that is left to be looked for is looked for now. -/
def Call.perform (run : Runner) (tested isLast : Bool) : Call → Step Unit
  | .nothing => do setStatus (← ask (·.substituted))
  | .called name target arguments => do
    let perform : Target → Step Unit
      | .special builtin => callBuiltin true name builtin arguments
      | .regular builtin => callBuiltin false name builtin arguments
      | .naming => callBuiltin false name (namingBuiltin run name) arguments
      | .function body => callFunction run tested body arguments
      | .program search => do runProgram run isLast (← search.pathOf) 0 name arguments
    let found (search : Search) : Step Unit := do
      let builtin := builtinOf? run tested name
      match ← directBuiltin? run tested name with
      | some target => perform target
      | none =>
        match ← lookUp run search builtin.isSome name with
        | .program index => runProgram run isLast (← search.pathOf) index name arguments
        | .function body => perform (.function body)
        | .builtin => perform (builtin.getD target)
        | .failed cause => missing name cause
    match target with
    | .program search => if '/' ∈ name then perform target else found search
    | .regular _ | .naming => if name ∈ replaceable then found .usual else perform target
    | _ => perform target

/-- The variables keep their values behind the call. -/
def Call.keepsVariables : Call → Bool
  | .nothing | .called _ (.special _) _ => true
  | _ => false

/-- An error in the call ends the script. -/
def Call.isSpecial : Call → Bool
  | .called _ (.special _) _ => true
  | _ => false

/-- The call is one of `exec`, behind which the descriptors keep what they stand for. -/
def Call.isExecution : Call → Bool
  | .called name (.special _) _ | .called name (.regular _) _ => name = "exec"
  | _ => false

/-- The process becomes another program. -/
def Call.replaces : Call → Bool
  | .called name (.special _) (_ :: _) => name = "exec"
  | _ => false

/-! ## The whole command -/

/-- The variables get their values; the assignments as they are shown. -/
def assignAll (capture : Capture) (isLocal exported : Bool) (assignments : List (Text × Word)) :
    Step (List Text) :=
  assignments.mapM fun (name, value) => do
    let value ← expandText capture Mode.assigned value
    if isLocal then keepLocally name
    assign name (some value) (exported || isLocal) false
    return name ++ '=' :: value

/-- The command as it is shown before it runs, if the script wants that. Commands in its
mark are not shown. -/
def trace (run : Runner) (errors : Option Nat) (words : List Text) : Step Unit := do
  if (← hasOption 'x') ∧ ¬ (← ask (·.marking)) then
    let mark ← markOf run "PS4"
    keepingDescriptors [2] do
      setDescriptor 2 errors
      complain (mark ++ [' '].intercalate words)

/-- **A simple command.** -/
def simple (run : Runner) (tested isLast : Bool) (line : Nat) (assignments : List (Text × Word))
    (words : List Word) (redirects : List Redirect) : Step Unit := do
  change ({ · with line, substituted := 0 })
  let capture := capture run
  let arguments ← expandArguments capture [] words
  let call ← callOf run tested arguments
  let openings ← redirects.mapM (expandRedirect capture)
  let errors := (← ask (·.descriptors)).lookup 2
  let rest : Step Unit := do
    let shown ← assignAll capture (! call.keepsVariables) call.replaces assignments
    trace run errors (shown ++ arguments)
    call.perform run tested isLast
  let whole : Step Unit := do
    if ← openAll capture openings then
      if call.keepsVariables then rest else inScope rest
    else if call.isSpecial then stop .failed
  if call.isExecution then whole
  else keepingDescriptors (redirects.map Redirect.descriptor) whole

end LineShell.Script.Step
