/-
# LineShell.Script.Run.Texts -- texts that are read and run

A text is run line by line: the commands on a line are read, then they run, and what they
do may change how the next line is read. A text may be whole from the beginning, or it
comes in chunks, each of which is asked for when reading meets the end of those before.

How a single command runs is handed in as a `Runner`.
-/

import LineShell.Script.Expansion

namespace LineShell.Script

/-- **Runner** — runs a command. The flag tells whether somebody looks at its status, so
that a failure does not end the script. -/
abbrev Runner := Bool → Command → Step Unit

/-- **Supply** — a text: what is known of it from the beginning, and how the next chunk is
found, if there may be one. -/
structure Supply where
  first : Text
  next : Option (Step Text)

namespace Supply

/-- A text that is whole. -/
def ofText (text : Text) : Supply := ⟨text, none⟩

/-- The bytes of an open file. -/
def ofOpen (index : Nat) : Supply := ⟨[], some (Step.takeChunk index)⟩

end Supply

namespace Step

def setStatus (status : Int) : Step Unit := change ({ · with status })

/-! ## Watching -/

/-- The line that a text has been read up to, whole. -/
def wholeLines (before after : Text) : Text :=
  let read := before.take (before.length - after.length)
  if read = [] ∨ read.getLast? = some '\n' then read
  else read ++ after.takeWhile (· ≠ '\n') ++ (if '\n' ∈ after then ['\n'] else [])

/-- **Watch** — what is done about a piece of a source that has been read, or could not be;
the flag tells which. The sources are the one before it and the one behind it. -/
abbrev Watch := Bool → Source → Source → Step Unit

/-- Nothing is done. -/
def Watch.nothing : Watch := fun _ _ _ => return ()

/-- The lines are shown, if the script wants that. -/
def Watch.lines : Watch := fun _ before after => do
  if ← hasOption 'v' then
    let _ ← write 2 (wholeLines before.rest after.rest)

/-! ## Reading -/

/-- **Reading** — what a reader gives, and the sources before and behind that. -/
structure Reading (α : Type) where
  result : Except Text α
  before : Source
  after : Source

/-- What a reader gives that begins at a source. -/
def attemptReading {α : Type} (reader : Reader α) (source : Source) : Step (Reading α) := do
  let m ← get
  let before :=
    { source with
      aliases := m.process.aliases
      count := m.documentCount
      meetsEnd := false }
  let (result, after) := (reader.run.run before : Id _)
  return ⟨result, before, after⟩

/-- What has been read counts: it is watched, and an error stops the run. -/
def accept {α : Type} (watch : Watch) (r : Reading α) : Step α := do
  modify fun m =>
    { m with
      documents := r.after.documents ++ m.documents
      documentCount := r.after.count }
  change ({ · with ahead := r.after.ahead.isSome })
  watch r.result.isOk r.before r.after
  match r.result with
  | .ok found => return found
  | .error message => do
    change ({ · with line := r.after.line })
    fail ("Syntax error: " ++ message)

/-- How many chunks one line may take. -/
def chunkLimit : Nat := 1000000

/-- The next line of a source. While reading meets the end, it begins again with one more
chunk; NUL in it is passed over. The answer tells, too, what is left of the supply. -/
def readLineWithin (source : Source) : Nat → Option (Step Text) →
    Step (Reading Reader.Line × Option (Step Text))
  | 0, next => return (← attemptReading Reader.nextLine source, next)
  | fuel + 1, next => do
    let found ← attemptReading Reader.nextLine source
    match found.after.meetsEnd, next with
    | true, some chunk =>
      match ← chunk with
      | [] => readLineWithin source fuel none
      | more => readLineWithin (source.extend (more.filter (· ≠ '\x00'))) fuel next
    | _, _ => return (found, next)

/-! ## Running -/

/-- How many lines of a text are run. -/
def sourceLimit : Nat := 1000000

/-- Runs the lines of a source, as many as the fuel tells. The status so far is `status`. -/
def runSource (run : Runner) (tested : Bool) (watch : Watch) :
    Nat → Option (Step Text) → Source → Int → Step Int
  | 0, _, _, status => return status
  | fuel + 1, next, source, status => do
    let (found, next) ← readLineWithin source chunkLimit next
    let line ← accept (fun isRead before after => do
      change ({ · with lineRead := after.line })
      watch isRead before after) found
    match line with
    | .finished => return status
    | .commands none => runSource run tested watch fuel next found.after status
    | .commands (some command) => do
      run tested command
      let p ← ask id
      if p.skip = .none then runSource run tested watch fuel next found.after p.status
      else return p.status

/-- **Running a text;** the result is the status of its last command. -/
def runLines (run : Runner) (tested : Bool) (watch : Watch) (supply : Supply) : Step Int := do
  let lineRead ← ask (·.lineRead)
  let status ← runSource run tested watch sourceLimit supply.next
    (Source.ofText supply.first 1 0 []) 0
  change ({ · with lineRead })
  return status

end Step
end LineShell.Script
