/-
# LineShell.Tree.Basic -- directory trees

A directory tree says what stands at each location: a directory, a regular file with
its text, a symbolic link with its target text, or a device. The location of a
directory is the list of names that leads to it from the root, innermost first, so that
the parent of `name :: place` is `place` and the root is the empty list. The root is
always a directory. Some devices are always there, among them one that swallows what is
written to it and one that is always full, and the descriptors of the process. One program is
there without a text: the interpreter of scripts.

A tree is used through `at?`, what stands at a location, and `put`, which replaces
it; `at?_put` says how the two fit together.
-/

import LineShell.Path

namespace LineShell

/-- **Location** — where something stands in a tree: the names that lead there from the
root, innermost first. -/
abbrev Location := List Text

/-- The location as an absolute path. -/
def Location.toPath (place : Location) : Text := '/' :: ['/'].intercalate place.reverse

/-- **Device** — `null` takes everything and holds nothing; `full` refuses everything and
`zero` takes it, both hold zeros without end; there is no `terminal` that could be opened;
a `descriptor` stands for what it stands for in the process that opens it. A tree holds no
text of a device: what is written to one is gone, also what is written to a `descriptor`, and
is not shown where the outputs of the process are. -/
inductive Device
  | null
  | full
  | zero
  | terminal
  | descriptor (number : Nat)
  deriving DecidableEq, Repr

/-- **Entry** — what stands at a location. -/
inductive Entry
  | directory
  | file (text : Text) (executable : Bool)
  | link (target : Text)
  | device (device : Device)
  deriving DecidableEq, Repr

/-- **Key** — what entries are kept under: a location behind the number of its names,
which tells most locations apart at once. -/
abbrev Location.Key := Nat × Location

def Location.key (place : Location) : Location.Key := (place.length, place)

theorem Location.key_inj {a b : Location} : a.key = b.key ↔ a = b := by
  simp only [key, Prod.mk.injEq, and_iff_right_iff_imp]
  exact fun h => h ▸ rfl

/-- Keys tell locations apart. -/
theorem Location.key_beq (a b : Location) : (a.key == b.key) = (a == b) := by
  rw [Bool.eq_iff_iff, beq_iff_eq, beq_iff_eq, Location.key_inj]

/-- **Tree** — the entries of a directory tree by location. -/
structure Tree where
  entries : List (Location.Key × Entry)
  deriving Repr

namespace Tree

/-- What stands at a location. -/
def at? (t : Tree) (place : Location) : Option Entry :=
  if place = [] then some .directory else t.entries.lookup place.key

/-- The tree with `entry` at `place`. -/
def put (t : Tree) (place : Location) (entry : Entry) : Tree :=
  ⟨(place.key, entry) :: t.entries⟩

theorem at?_put (t : Tree) (place other : Location) (entry : Entry) (h : place ≠ []) :
    (t.put place entry).at? other = if other = place then some entry else t.at? other := by
  by_cases ho : other = place
  · subst ho
    simp [at?, put, h]
  · by_cases hr : other = []
    · simp [at?, hr, eq_comm]
      intro e
      exact absurd e h
    · simp [at?, put, hr, ho, List.lookup_cons, Location.key_beq, beq_eq_false_iff_ne.2 ho]

@[simp] theorem at?_nil (t : Tree) : t.at? [] = some .directory := by
  simp [at?]

/-- A directory stands at the location. -/
def isDirectory (t : Tree) (place : Location) : Bool := t.at? place = some .directory

/-- Where the interpreter of scripts stands. -/
def interpreterPlace : Location := ["sh".toList, "bin".toList]

/-- The devices, and the links to the descriptors that every process has. -/
def devices : List (Text × Entry) :=
  [("null".toList, .device .null), ("full".toList, .device .full),
   ("zero".toList, .device .zero), ("random".toList, .device .zero),
   ("urandom".toList, .device .zero), ("tty".toList, .device .terminal),
   ("fd".toList, .link "/proc/self/fd".toList),
   ("stdin".toList, .link "/proc/self/fd/0".toList),
   ("stdout".toList, .link "/proc/self/fd/1".toList),
   ("stderr".toList, .link "/proc/self/fd/2".toList)]

/-- The directory of the descriptors of a process. -/
def descriptorPlace : Location := ["fd".toList, "self".toList, "proc".toList]

/-- The tree that holds nothing but the devices, the descriptors and the interpreter of
scripts. -/
def empty : Tree where
  entries :=
    [(Location.key ["bin".toList], .directory),
     (Location.key interpreterPlace, .file [] true),
     (Location.key ["dev".toList], .directory),
     (Location.key ["proc".toList], .directory),
     (Location.key ["self".toList, "proc".toList], .directory),
     (Location.key descriptorPlace, .directory)]
    ++ devices.map (fun (name, entry) => (Location.key [name, "dev".toList], entry))
    ++ "0123456789".toList.zipIdx.map (fun (digit, number) =>
      (Location.key ([digit] :: descriptorPlace), .device (.descriptor number)))

/-! ## Building a tree -/

/-- The tree with a directory at `place` and at every location above it. -/
def putDirectory (t : Tree) : Location → Tree
  | [] => t
  | name :: above =>
    let t := t.putDirectory above
    if t.isDirectory (name :: above) then t else t.put (name :: above) .directory

/-- The tree with `entry` at `place` and directories above it. -/
def putWithin (t : Tree) (place : Location) (entry : Entry) : Tree :=
  (t.putDirectory place.tail).put place entry

/-- The location that the names of a path lead to from `base`, links not followed. -/
def locationOf (base : Location) (path : Text) : Location :=
  ((Text.pieces '/' path).filter (· ≠ [])).reverse ++ base

/-! ## Comparing trees -/

/-- **Changes** — the locations at which `new` differs from `old`, with what now stands
there, oldest entry first. -/
def changes (old new : Tree) : List (Location × Entry) :=
  (new.entries.filterMap fun ((_, place), _) =>
    match new.at? place with
    | some entry => if old.at? place = some entry then none else some (place, entry)
    | none => none).reverse

end Tree
end LineShell
