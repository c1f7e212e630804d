/-
# LineShell.Script.Machine -- what processes share

One process runs at a time; the others live beside it. All of them share the directory
tree, the bytes of the files that were opened, and the files that are open. A file stays
open as long as some process has it: so a reader of a pipe knows when nobody is left that
could write into it, and a writer when nobody reads any more.
-/

import LineShell.Environment
import LineShell.Script.Content
import LineShell.Script.Population
import LineShell.Tree.Write

namespace LineShell.Script

/-- **Open file** — what a descriptor may stand for: a device; the rest of a document; a
place where all that is written is collected, last pieces first; the two ends of a pipe,
each with the index of the other one; a directory; or the bytes of a file of the tree, by
their number, and the place reached in them. -/
inductive OpenFile
  | device (device : Device) (access : Access)
  | document (rest : Text)
  | collector (written : List Text)
  | outlet (queue : Queue) (inlet : Nat)
  | inlet (outlet : Nat)
  | directory
  | file (content : Nat) (position : Nat) (access : Access)

/-- **Dispatch** — a signal that was sent to the process with a number, and the moment at
which it arrives. -/
structure Dispatch where
  moment : Nat
  number : Nat
  signal : Nat
  deriving DecidableEq, Repr

/-- **Machine** — the process that runs, the others, those that have ended, and all that
they share. Signals that were `sent` are still on their way. Some files are `busy`:
somebody else writes to them. The process goes on running up to the `horizon` before others
have their turn. -/
structure Machine where
  process : Process
  others : List Process
  ended : List Ended
  sent : List Dispatch
  tree : Tree
  contents : Array Content
  busy : List Location
  files : Array OpenFile
  documents : List (Nat × Word)
  documentCount : Nat
  started : Nat
  horizon : Nat

namespace Machine

/-- All processes, the one that runs first. -/
def population (m : Machine) : Population := ⟨m.process :: m.others, m.ended⟩

/-- Something happens to the processes that does not end the one that runs. -/
def among (m : Machine) (f : Population → Population) : Machine :=
  match f m.population with
  | ⟨process :: others, ended⟩ => { m with process, others, ended }
  | ⟨[], _⟩ => m

/-- Some process has the open file at an index. -/
def isHeld (m : Machine) (index : Nat) : Bool :=
  m.process.holds index || m.others.any (·.holds index)

/-- The bytes of the file at a location, if it was opened. -/
def content? (m : Machine) (place : Location) : Option Content :=
  m.contents.find? (·.place = place)

/-- The locations of the files that are open for writing. -/
def writtenPlaces (m : Machine) : List Location :=
  let place? (index : Nat) : Option Location :=
    match m.files[index]? with
    | some (.file content _ access) =>
      if access = .read then none else m.contents[content]?.map (·.place)
    | _ => none
  m.busy ++ (m.process :: m.others).flatMap fun p =>
    (p.descriptors.map (·.2) ++ p.kept).filterMap place?

/-- The tree with the files as they have been written. -/
def finalTree (m : Machine) : Tree :=
  m.contents.foldl (fun t c =>
    match t.at? c.place with
    | some (.file _ executable) => t.put c.place (.file c.toText executable)
    | _ => t) m.tree

/-- All that was written to a collector. -/
def collected (m : Machine) (index : Nat) : Text :=
  match m.files[index]? with
  | some (.collector written) => written.reverse.flatten
  | _ => []

end Machine
end LineShell.Script
