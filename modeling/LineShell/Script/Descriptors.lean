/-
# LineShell.Script.Descriptors -- what is written to and read from descriptors

A descriptor of a process stands for an open file. Bytes are written to it: to a file of
the tree, as far as its size is not limited, into a pipe, as far as there is room and
somebody reads there, or to where they are collected. Bytes are read from it: those that
are there, while a pipe may be waited for as long as somebody writes into it.

Messages go to the errors, which are a descriptor like others.
-/

import LineShell.Script.Step

namespace LineShell.Script.Step

/-! ## Open files -/

/-- What a descriptor stands for. -/
def openFile? (descriptor : Nat) : Step (Option (Nat × OpenFile)) := do
  let m ← get
  match m.process.descriptors.lookup descriptor with
  | none => return none
  | some index => return m.files[index]?.map (index, ·)

def setOpenFile (index : Nat) (file : OpenFile) : Step Unit :=
  modify fun m => { m with files := m.files.setIfInBounds index file }

/-- A file is opened and stands at a new index. -/
def addFile (file : OpenFile) : Step Nat := do
  let index := (← get).files.size
  modify fun m => { m with files := m.files.push file }
  return index

/-- **Pipe** — the indices of its two ends. -/
structure Pipe where
  outlet : Nat
  inlet : Nat

/-- A new pipe. -/
def makePipe : Step Pipe := do
  let outlet := (← get).files.size
  let _ ← addFile (.outlet .empty (outlet + 1))
  let inlet ← addFile (.inlet outlet)
  return ⟨outlet, inlet⟩

/-- A descriptor stands for the open file at an index, or for nothing. -/
def setDescriptor (descriptor : Nat) (index : Option Nat) : Step Unit :=
  change (·.setDescriptor descriptor index)

/-- Runs a step after which some descriptors stand for what they stood for before. What they
stood for stays open meanwhile. -/
def keepingDescriptors {α : Type} (which : List Nat) (step : Step α) : Step α := do
  let before ← ask (·.descriptors)
  let kept ← ask (·.kept)
  change ({ · with kept := which.filterMap (fun d => before.lookup d) ++ kept })
  let restore : Step Unit := do
    which.forM fun descriptor => setDescriptor descriptor (before.lookup descriptor)
    change ({ · with kept })
  let result ← tryCatch step fun why => do
    restore
    throw why
  restore
  return result

/-! ## Writing -/

/-- How many bytes a file may grow to, if there is a limit. -/
def sizeLimit? : Step (Option Nat) := ask fun p => (p.limits.lookup 'f').bind (·.soft)

/-- Bytes are written to a file of the tree, at its end or from a position on, as far as
the limit on its size allows. -/
def writeContent (index content position : Nat) (access : Access) (bytes : Text) :
    Step Bool := do
  let size := ((← get).contents[content]?.map (·.bytes.size)).getD 0
  let position := if access = .append then size else position
  let allowed := match ← sizeLimit? with
    | some limit => bytes.take (limit - position)
    | none => bytes
  modify fun m =>
    { m with contents := m.contents.modify content (·.write position allowed) }
  setOpenFile index (.file content (position + allowed.length) access)
  let isWhole := allowed.length = bytes.length
  unless isWhole do receive Signal.fileSize
  return isWhole

/-- How much room there is in a pipe. -/
def pipeRoom : Nat := 65536

/-- As many bytes are written into a pipe all together or not at all; and where more are
written, there is room for them as soon as there is for so many. -/
def pageSize : Nat := 4096

/-- Bytes are written into a pipe from whose outlet somebody has to read. The fuel tells
how often room is waited for. -/
def feed (outlet : Nat) : Nat → Text → Step Bool
  | 0, _ => return false
  | fuel + 1, bytes => do
    let m ← get
    match m.isHeld outlet, m.files[outlet]? with
    | true, some (.outlet queue inlet) =>
      let room := pipeRoom - queue.size
      if bytes.length ≤ room then
        setOpenFile outlet (.outlet (queue.push bytes) inlet)
        return true
      else if bytes.length ≤ pageSize then
        waitFor (.room outlet bytes.length)
        feed outlet fuel bytes
      else
        setOpenFile outlet (.outlet (queue.push (bytes.take room)) inlet)
        waitFor (.room outlet pageSize)
        feed outlet fuel (bytes.drop room)
    | _, _ =>
      receive Signal.brokenPipe
      return false

/-- Bytes are written to a descriptor; the answer tells whether that succeeds. -/
def write (descriptor : Nat) (bytes : Text) : Step Bool := do
  if bytes = [] then return true
  match ← openFile? descriptor with
  | some (index, .collector written) =>
    setOpenFile index (.collector (bytes :: written))
    return true
  | some (_, .inlet outlet) => feed outlet waitLimit bytes
  | some (_, .device device access) => return access ≠ .read && device ≠ .full
  | some (index, .file content position access) =>
    if access = .read then return false
    else writeContent index content position access bytes
  | _ => return false

/-! ## Messages -/

/-- A line on the errors, as it stands. -/
def complain (line : Text) : Step Unit := do
  let _ ← write 2 (line ++ ['\n'])

/-- A message with the script's name, the number of the line and the builtin that
complains. -/
def warn (message : Text) : Step Unit := do
  let p ← ask id
  complain (p.name ++ ": " ++ Text.ofInt p.line ++ ": " ++ (match p.command with
    | some command => command ++ ": "
    | none => []) ++ message)

/-- An error: it is reported and stops the run. -/
def fail {α : Type} (message : Text) : Step α := do
  change ({ · with status := 2 })
  warn message
  stop .failed

/-! ## Reading -/

/-- The bytes that are there to be read from an open file, at most `count`. There are none
at its end; a pipe that is empty is waited for, as often as the fuel tells. -/
def peekWithin (interruptible : Bool) (index count : Nat) : Nat → Step Text
  | 0 => return []
  | fuel + 1 => do
    let m ← get
    match m.files[index]? with
    | some (.document rest) => return rest.take count
    | some (.outlet queue inlet) =>
      if 0 < queue.size then
        let queue := queue.reaching count
        setOpenFile index (.outlet queue inlet)
        return queue.front.take count
      else if m.isHeld inlet ∧ ¬ (interruptible ∧ m.process.caught ≠ []) then
        waitFor (.bytes index interruptible)
        peekWithin interruptible index count fuel
      else return []
    | some (.file content position access) =>
      if access = .read ∨ access = .readWrite then
        return (m.contents[content]?.map (·.slice position count)).getD []
      else return []
    | some (.device device access) =>
      let isEndless := device = .full ∨ device = .zero
      return if isEndless ∧ (access = .read ∨ access = .readWrite) then
        List.replicate count '\x00' else []
    | _ => return []

/-- The bytes that are there to be read, at most `count`. -/
def peekBytes (interruptible : Bool) (index count : Nat) : Step Text :=
  peekWithin interruptible index count waitLimit

/-- Bytes have been read from an open file. -/
def passBytes (index count : Nat) : Step Unit :=
  modify fun m =>
    { m with
      files := m.files.modify index fun
        | .document rest => .document (rest.drop count)
        | .outlet queue inlet => .outlet (queue.drop count) inlet
        | .file content position access => .file content (position + count) access
        | file => file }

/-- How many bytes are read at once where a text is read. -/
def chunkSize : Nat := 8192

/-- The next bytes of an open file that holds a text, taken from it. -/
def takeChunk (index : Nat) : Step Text := do
  match (← get).files[index]? with
  | some (.device _ _) => return []
  | _ =>
    let bytes ← peekBytes false index chunkSize
    passBytes index bytes.length
    return bytes

end LineShell.Script.Step
