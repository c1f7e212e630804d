/-
# LineShell.Target -- writing to a redirect target

A redirect target is a path, taken from the session's working directory. Opening it
makes the missing directories above it and makes or empties the file. What is written
waits in two buffers, a text buffer and a block buffer in front of the file, and reaches
the file when a buffer runs over and when the target is closed. For a regular file this
cannot be seen: once closed it holds what was written. It can be seen on the device that
is always full, which refuses bytes only when they reach it, and where two targets are
the same file.

A `Sink` is where the lines of a program go: to the console, or to a target.
-/

import LineShell.Action

namespace LineShell

/-! ## Buffers -/

/-- The size of the text buffer in bytes. -/
def textBufferSize : Nat := 8192

/-- The size of the block buffer in bytes. -/
def blockBufferSize : Nat := 4096

/-- **Buffer** — how many bytes wait in the text buffer, how many are staged in the
block buffer, and how many have been passed on to the file. -/
structure Buffer where
  waiting : Nat
  staged : Nat
  passed : Nat
  deriving DecidableEq, Repr

namespace Buffer

def empty : Buffer := ⟨0, 0, 0⟩

/-- The waiting bytes move on. If they do not fit into the block buffer, what is staged
there is passed on to the file first, and so are the waiting bytes themselves if they are
more than a block. A file that does not accept bytes makes this fail. -/
def handOver (accepts : Bool) (b : Buffer) : Buffer × Bool :=
  if b.staged + b.waiting ≤ blockBufferSize then
    ({ b with waiting := 0, staged := b.staged + b.waiting }, true)
  else if accepts then
    if b.waiting ≤ blockBufferSize then
      (⟨0, b.waiting, b.passed + b.staged⟩, true)
    else (⟨0, 0, b.passed + b.staged + b.waiting⟩, true)
  else ({ b with waiting := 0 }, false)

/-- `n` more bytes are written. What waits is handed over before it would grow beyond the
text buffer, and again once the text buffer is full. -/
def write (accepts : Bool) (b : Buffer) (n : Nat) : Buffer × Bool :=
  match if b.waiting + n ≤ textBufferSize then (b, true) else b.handOver accepts with
  | (b, false) => (b, false)
  | (b, true) =>
    let b := { b with waiting := b.waiting + n }
    if b.waiting < textBufferSize then (b, true) else b.handOver accepts

/-- Bytes are left that have not reached the file. -/
def holdsBytes (b : Buffer) : Bool := 0 < b.waiting + b.staged

theorem handOver_accepting (b : Buffer) : (b.handOver true).2 = true := by
  unfold handOver
  split
  · rfl
  · simp only [if_true]
    split <;> rfl

/-- A file that accepts bytes lets every write succeed. -/
theorem write_accepting (b : Buffer) (n : Nat) : (b.write true n).2 = true := by
  unfold write
  split
  · rename_i h
    split at h
    · simp at h
    · have := handOver_accepting b
      simp_all
  · simp only
    split
    · rfl
    · exact handOver_accepting _

end Buffer

/-! ## Targets -/

/-- **Writer** — a target opened for writing and what was written to it, the last piece
first. -/
structure Writer where
  handle : Handle
  pieces : List Text
  buffer : Buffer
  deriving DecidableEq, Repr

namespace Writer

/-- All that was written. -/
def text (w : Writer) : Text := w.pieces.reverse.flatten

/-- The file accepts the bytes that reach it. -/
def accepts (w : Writer) : Bool := w.handle ≠ .device .full

/-- More text is written; the flag tells whether that succeeded. -/
def write (w : Writer) (text : Text) : Writer × Bool :=
  let (buffer, done) := w.buffer.write w.accepts (Text.byteLength text)
  ({ w with pieces := text :: w.pieces, buffer }, done)

/-- What is written comes behind what was. -/
theorem text_write (w : Writer) (text : Text) : (w.write text).1.text = w.text ++ text := by
  simp [write, Writer.text]

end Writer

namespace Target

/-- A target taken from the working directory. -/
def resolve (path directory : Text) : Text := Path.join directory path

/-- **Opening** a target. -/
def openWriter (host : Host) (path directory : Text) : Action Writer := do
  let target := resolve path directory
  let above := Path.directoryPart target
  if above ≠ [] then
    Action.onTree (Tree.makeDirectoriesWithin host.directory host.nestingLimit above)
  Action.log .debug ("Opening redirection target: " ++ target)
  let handle ← Action.onTree (Tree.openFile host.directory target)
  Action.emit (.opened handle)
  return ⟨handle, [], .empty⟩

/-- **Closing** a target: what is still in its buffers reaches the file. The outcome of
the work that the target was open for is passed through, unless closing fails. Of a device
nothing is kept. -/
def closeWriter {α : Type} (w : Writer) (outcome : Except Fault α) :
    Action (Except Fault α) := do
  Action.emit (.closed w.handle)
  match w.handle with
  | .file place => do
    modify fun world =>
      { world with tree := world.tree.writeFile place w.buffer.passed w.text }
    return outcome
  | .device .full =>
    return if w.buffer.holdsBytes then .error (.ofCause .noSpace) else outcome
  | .device _ => return outcome

/-- A text becomes the whole content of a target. -/
def fill (host : Host) (path directory text : Text) : Action Unit := do
  let w ← openWriter host path directory
  let (w, done) := w.write text
  let outcome ← closeWriter w (if done then .ok () else .error (.ofCause .noSpace))
  Action.ofExcept outcome

/-- A target is made or emptied. -/
def touch (host : Host) (path directory : Text) : Action Unit := do
  let w ← openWriter host path directory
  let outcome ← closeWriter w (.ok ())
  Action.ofExcept outcome

end Target

/-! ## Sinks -/

/-- **Sink** — where the lines of a program go. -/
inductive Sink
  | console
  | target (writer : Writer)
  deriving DecidableEq, Repr

namespace Sink

/-- The sink for an optional target. -/
def ofTarget (host : Host) (directory : Text) : Option Text → Action Sink
  | none => return .console
  | some path => return .target (← Target.openWriter host path directory)

/-- Where the file stands that a sink writes to. -/
def place? : Sink → Option Location
  | .target ⟨.file place, _, _⟩ => some place
  | _ => none

/-- Closing a sink; the console stays open. -/
def close {α : Type} (sink : Sink) (outcome : Except Fault α) : Action (Except Fault α) :=
  match sink with
  | .console => return outcome
  | .target writer => Target.closeWriter writer outcome

end Sink
end LineShell
