/-
# LineShell.Script.Run.Commands -- running commands

A command runs by running the commands it is made of. While commands are skipped, because
a loop, a function or the script is being left, no other command runs. A command that
fails ends the script if the script wants that and nobody looks at its status.

Every level of nesting takes one unit of the fuel that running starts with. A loop has
fuel of its own, one unit for every turn.
-/

import LineShell.Script.Run.Simple

namespace LineShell.Script.Step

/-! ## Loops -/

/-- What a loop has to do about commands that are skipped: its own share of leaving
loops is taken off. -/
def loopSkip : Step Skip := do
  let p ← ask id
  match p.skip with
  | .none => return .none
  | .function => return .function
  | skip =>
    if p.skipCount ≤ 1 then
      change ({ · with skip := .none })
      return skip
    else
      change ({ · with skipCount := p.skipCount - 1 })
      return .loops

/-- The loop goes on. -/
def goesOn (skip : Skip) : Bool := skip = .none || skip = .turn

/-- Runs commands, if there are any. -/
def runMaybe (run : Runner) (tested : Bool) : Option Command → Step Unit
  | some command => run tested command
  | none => return ()

/-- How many turns a loop may have. -/
def turnLimit : Nat := 100000000

/-- The turns of a loop, as many as the fuel tells; `status` is the status so far. -/
def turns (run : Runner) (tested whileFails : Bool) (condition body : Option Command) :
    Nat → Int → Step Int
  | 0, status => return status
  | fuel + 1, status => do
    runMaybe run true condition
    let found ← ask (·.status)
    match ← loopSkip with
    | .none =>
      if (found = 0) = whileFails then return status
      runMaybe run tested body
      let status ← ask (·.status)
      if goesOn (← loopSkip) then turns run tested whileFails condition body fuel status
      else return status
    | .turn => turns run tested whileFails condition body fuel status
    | .function => return found
    | .loops => return status

/-- The turns of a loop over texts. -/
def turnsOver (run : Runner) (tested : Bool) (name : Text) (body : Option Command) :
    List Text → Int → Step Int
  | [], status => return status
  | text :: rest, _ => do
    setVariable name text
    runMaybe run tested body
    let status ← ask (·.status)
    if goesOn (← loopSkip) then turnsOver run tested name body rest status else return status

/-- Runs a loop; the number of loops that can be left is kept. -/
def inLoop (loop : Step Int) : Step Unit := do
  let before ← ask (·.loops)
  change ({ · with loops := before + 1 })
  let status ← loop
  change ({ · with loops := before, status })

/-! ## Choices -/

/-- The commands of the first case whose pattern fits. -/
def chosen (capture : Capture) (subject : Text) :
    List (List Word × Option Command) → Step (Option Command)
  | [] => return none
  | (patterns, body) :: rest => do
    if ← patterns.anyM fun pattern => return (← expandPattern capture pattern).fits subject then
      return body
    else chosen capture subject rest

/-! ## Processes -/

/-- Runs a command, which may be the last one that the process runs. -/
def runLast (run : Runner) (isLast tested : Bool) (command : Command) : Step Unit := do
  change ({ · with isLast })
  run tested command

/-- The commands of a pipeline begin, each in a process of its own, whose numbers are the
answer; `prepare` changes each of them, and `input` is the index of the file that the first
one reads from. -/
def startStages (run : Runner) (tested : Bool) (prepare : Process → Process) :
    Option Nat → List Command → Step (List Nat)
  | _, [] => return []
  | input, command :: rest => do
    let pipe ← if rest.isEmpty then pure none else do pure (some (← makePipe))
    let joined (p : Process) : Process :=
      let p := match input with
        | some index => p.setDescriptor 0 (some index)
        | none => p
      match pipe with
      | some pipe => p.setDescriptor 1 (some pipe.inlet)
      | none => p
    let number ← startProcess run startTime (joined ∘ prepare)
      (runLast run true tested command)
    return number :: (← startStages run tested prepare (pipe.map (·.outlet)) rest)

/-- The programs that the commands of a pipeline name by plain names are looked for. -/
def lookAhead (run : Runner) (commands : List Command) : Step Unit :=
  commands.forM fun command => match command.bare with
    | .simple _ _ (word :: _) _ => do
      match plainText? word with
      | some name =>
        match isName name, ← targetOf run false name with
        | true, .program search =>
          let _ ← lookUp run search (builtinOf? run false name).isSome name
        | _, _ => return ()
      | none => return ()
    | _ => return ()

/-- A pipeline. -/
def pipe (run : Runner) (tested : Bool) (commands : List Command) : Step Unit := do
  lookAhead run commands
  noteEnding (← awaitAll (← startStages run tested id none commands))

/-- The signals that processes in the background do not receive. -/
def unheard : List Nat := [Signal.interrupt, Signal.quit]

/-- A command in the background. -/
def inBackground (run : Runner) (command : Command) : Step Unit := do
  let nothing ← addFile (.device .null .read)
  let prepare (p : Process) : Process :=
    { p.setDescriptor 0 (some nothing) with ignored := p.ignored ++ unheard }
  let processes ← match command.bare with
    | .pipeline commands => do
      lookAhead run commands
      startStages run false prepare none commands
    | other => do
      pure [← startProcess run startTime prepare (runLast run true false other)]
  change fun p =>
    let (number, jobs) := Job.claim p.jobs
    { p with
      jobs := Job.start number processes :: jobs
      background := processes.getLast?
      status := 0 }

/-! ## All commands -/

/-- The command ends the script if it fails and nobody looks at its status. -/
def isChecked : Command → Bool
  | .simple .. | .pipeline _ | .subshell .. | .background _ => true
  | _ => false

/-- Runs the second step unless commands are skipped. -/
def unlessSkipping (step : Step Unit) : Step Unit := do
  if (← ask (·.skip)) = .none then step

/-- Commands in a process of their own; in that of the script, if it has nothing more to
do. -/
def inSubshell (run : Runner) (isLast tested : Bool) (body : Option Command)
    (redirects : List Redirect) : Step Unit := do
  let openings ← redirects.mapM (expandRedirect (capture run))
  let inside : Step Unit := do
    openings.forM (perform (capture run))
    runMaybe (runLast run true) tested body
  if isLast ∧ ¬ (← hasTraps) then
    inside
    stop .exited
  else inProcess run inside

/-- Runs a command whose parts `run` runs. -/
def runParts (run : Runner) (isLast tested : Bool) : Command → Step Unit
  | .simple line assignments words redirects =>
    simple run tested isLast line assignments words redirects
  | .pipeline commands => pipe run tested commands
  | .negation command => do
    run true command
    unlessSkipping (setStatus (if (← ask (·.status)) = 0 then 1 else 0))
  | .both first second => do
    run true first
    if (← ask (·.status)) = 0 then unlessSkipping (runLast run isLast tested second)
  | .either first second => do
    run true first
    if (← ask (·.status)) ≠ 0 then unlessSkipping (runLast run isLast tested second)
  | .sequence first second => do
    run tested first
    unlessSkipping (runLast run isLast tested second)
  | .background command => inBackground run command
  | .subshell line body redirects => do
    change ({ · with line })
    inSubshell run isLast tested body redirects
  | .redirected line body redirects => do
    change ({ · with line })
    redirecting (capture run) redirects (runMaybe run tested body)
  | .group body => runMaybe (runLast run isLast) tested body
  | .branch condition yes no => do
    runMaybe run true condition
    unlessSkipping do
      if (← ask (·.status)) = 0 then runMaybe (runLast run isLast) tested yes
      else
        match no with
        | some command => runLast run isLast tested command
        | none => setStatus 0
  | .loop whileFails condition body =>
    inLoop (turns run tested whileFails condition body turnLimit 0)
  | .forEach line name items body => do
    change ({ · with line })
    let texts ← expandAll (capture run) items
    inLoop (turnsOver run tested name body texts 0)
  | .choice line subject cases => do
    change ({ · with line })
    let subject ← expandText (capture run) Mode.fixed subject
    match ← chosen (capture run) subject cases with
    | some command => runLast run isLast tested command
    | none => setStatus 0
  | .function name body => do
    change fun p =>
      { p with
        functions := (name, body) :: p.functions.filter (·.1 ≠ name)
        known := p.known.filter (·.1 ≠ name)
        status := 0 }

/-- What a command takes of the room for nested commands, besides what those take that it
runs. -/
def frameOf : Command → Nat
  | .simple .. => 740
  | .choice .. => 240
  | .pipeline _ | .subshell .. | .background _ => 224
  | .forEach .. => 192
  | .loop .. => 160
  | .negation _ | .both .. | .either .. | .sequence .. | .redirected .. | .branch .. => 112
  | .group _ | .function .. => 1

/-- Every command takes some room. -/
theorem frameOf_pos (command : Command) : 0 < frameOf command := by
  cases command <;> simp [frameOf]

/-- **Running a command** in the room that there is. What is nested deeper ends the process
as a lack of memory does. -/
def runWithin (room : Nat) (tested : Bool) (command : Command) : Step Unit := do
  if h : room < frameOf command then stop (.killed Signal.segmentation)
  else
    have : room - frameOf command < room := by
      have := frameOf_pos command
      omega
    let run := runWithin (room - frameOf command)
    spend 1
    giveWay
    let isLast ← ask (·.isLast)
    change ({ · with isLast := false })
    if ← hasOption 'n' then return ()
    runTraps run
    unlessSkipping (runParts run isLast tested command)
    let status ← ask (·.status)
    runTraps run
    if isChecked command ∧ ¬ tested ∧ status ≠ 0 ∧ (← hasOption 'e') then stop .exited
termination_by room
decreasing_by exact this

end LineShell.Script.Step
