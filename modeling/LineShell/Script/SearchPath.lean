/-
# LineShell.Script.SearchPath -- the directories where programs are looked for

A search path is a list of directories with colons between them. A directory may hold
something else than programs, which is said with a percent sign in front of it or behind
it: `%func` for files that define functions, and `%builtin` for the place at which
builtins stand. Any other percent sign belongs to the name of the directory.
-/

import LineShell.Script.Bytes

namespace LineShell.Script

/-- **Holding** — what is found in a directory of a search path. -/
inductive Holding
  | programs
  | functions
  | builtins
  deriving DecidableEq, Repr

/-- **Shelf** — a directory of a search path; the empty one is the working directory. -/
structure Shelf where
  directory : Text
  holding : Holding
  deriving DecidableEq, Repr

namespace Shelf

/-- What a text begins with, where it tells what a directory holds, and what is behind. -/
def holdingAt? (text : Text) : Option (Holding × Text) :=
  let words : List (Text × Holding) := [("builtin", .builtins), ("func", .functions)]
  (words.find? fun (word, _) => word.isPrefixOf text).map fun (word, holding) =>
    (holding, text.drop word.length)

/-- A directory with what may be said behind it. -/
def ofSuffixed (text : Text) : Shelf :=
  let directory := text.takeWhile (· ≠ '%')
  match holdingAt? (text.drop (directory.length + 1)) with
  | some (holding, _) => ⟨directory, holding⟩
  | none => ⟨text, .programs⟩

/-- A piece of a search path. -/
def ofText (text : Text) : Shelf :=
  match text with
  | '%' :: rest =>
    match holdingAt? rest with
    | some (holding, '%' :: directory) => ⟨directory, holding⟩
    | some (holding, directory) => ⟨directory, holding⟩
    | none => ofSuffixed text
  | _ => ofSuffixed text

/-- The path of a name in the directory. -/
def path (s : Shelf) (name : Text) : Text :=
  if s.directory = [] then name else s.directory ++ '/' :: name

end Shelf

namespace SearchPath

/-- The directories of a search path. -/
def shelves (searchPath : Text) : List Shelf := (Text.pieces ':' searchPath).map Shelf.ofText

/-- Some directory comes before the builtins that can be looked for. -/
def precedesBuiltins (searchPath : Text) : Bool :=
  match (Text.pieces ':' searchPath).findIdx? (("%builtin" : Text).isPrefixOf ·) with
  | some index => 0 < index
  | none => false

/-- The search path on which the usual programs are found. -/
def usual : Text := "/usr/local/sbin:/usr/local/bin:/usr/sbin:/usr/bin:/sbin:/bin"

end SearchPath

end LineShell.Script
