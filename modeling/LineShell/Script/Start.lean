/-
# LineShell.Script.Start -- what starting a program comes to

A program is an executable file. Its first line names the program that interprets it, its
interpreter, and maybe one argument for that one; the interpreter gets this argument, the
path of the file, and the arguments of the file. In the end stands the interpreter of
scripts, which is in every tree.

A new process takes its variables from the environment. Some variables it always has.
-/

import LineShell.Script.Files

namespace LineShell.Script

/-! ## Interpreters -/

/-- How many bytes at the beginning of a file are looked at for its interpreter. -/
def headLength : Nat := 256

/-- A blank in the first line of a file. -/
def isGap (c : Char) : Bool := c = ' ' || c = '\t'

/-- The bytes at the beginning of a file that holds a text. -/
def headOf (text : Text) : Text := (bytesOf (text.take headLength)).take headLength

/-- Bytes filled up with NUL. -/
def filledHead (bytes : Text) : Text :=
  bytes ++ List.replicate (headLength - bytes.length) '\x00'

/-- The first line behind its sign, up to a line feed in front of the first NUL, blanks at
its end aside. If there is none, the name of the interpreter has to end before the last
byte, in front of which the line ends. -/
def firstLine? (behind : Text) : Option Text :=
  let line := behind.takeWhile fun c => c ≠ '\n' && c ≠ '\x00'
  let trimmed (line : Text) : Text := (line.reverse.dropWhile isGap).reverse
  if behind[line.length]? = some '\n' then some (trimmed line)
  else
    let ends := (behind.dropWhile isGap).any fun c => isGap c || c = '\x00'
    if ends then some (trimmed behind.dropLast) else none

/-- The interpreter that the first line of a file names, and the argument it gets, where
the file begins with some bytes. The name ends with a blank or NUL, and the argument with
NUL. -/
def interpreterOf (bytes : Text) : Option (Text × List Text) :=
  match filledHead bytes with
  | '#' :: '!' :: behind =>
    match (firstLine? behind).map (List.dropWhile isGap) with
    | none | some [] => none
    | some line =>
      let path := line.takeWhile fun c => ! isGap c && c ≠ '\x00'
      match line.drop path.length with
      | '\x00' :: _ | [] => some (textOf path, [])
      | gap =>
        let argument := (gap.dropWhile isGap).takeWhile (· ≠ '\x00')
        some (textOf path, [textOf argument])
  | _ => none

/-- How many files may name an interpreter, one after the other. -/
def interpreterLimit : Nat := 5

/-- **Loading** — what a start is about besides the program: the directory from which
relative paths are taken, the files that are open for writing, the beginnings of files that
are no longer as the tree has them, and the room left for arguments. -/
structure Loading where
  base : Location
  busy : List Location
  head? : Location → Option Text
  room : Nat

namespace Loading

/-- How many bytes an argument or a variable with its value may have. -/
def lengthLimit : Nat := 131071

/-- How much room there is for arguments and variables, the places where they stand, and
the path of the program. -/
def totalRoom : Nat := 2097152

/-- How much room a text takes with so many bytes. -/
def roomFor (length : Nat) : Nat := length + 1

/-- The room that is left beside the path of a program and texts with so many bytes. There
is none if one of them is too long. -/
def roomBeside (path : Text) (lengths : List Nat) : Nat :=
  let pointers := 8 * (lengths.length + 1)
  let taken := pointers + roomFor (Text.byteLength path) + (lengths.map roomFor).foldr (· + ·) 0
  if lengths.all (· ≤ lengthLimit) then totalRoom - taken else 0

/-- There is room for more texts. -/
def fits (l : Loading) (texts : List Text) : Bool :=
  (texts.map fun text => roomFor (Text.byteLength text)).foldr (· + ·) 0 ≤ l.room

end Loading

/-- The arguments that the interpreter of scripts gets in front of those of the program at
`executable`, which is started under a name; `front` are those that it gets already. -/
def interpretation (t : Tree) (l : Loading) :
    Nat → Text → Text → List Text → Except Cause (List Text)
  | depth, name, executable, front =>
    match t.locate l.base executable with
    | .error cause => .error cause
    | .ok place =>
      match t.at? place with
      | some (.file text true) =>
        if place ∈ l.busy then .error .fileBusy
        else if ¬ l.fits (name :: front) then .error .argumentsTooLong
        else if place = Tree.interpreterPlace then .ok front
        else match interpreterOf ((l.head? place).getD (headOf text)) with
          | none => .error .badFormat
          | some ([], _) => .error .denied
          | some (path, argument) =>
            match depth with
            | 0 => .error .tooManyLinks
            | depth + 1 => interpretation t l depth path path (argument ++ executable :: front)
      | _ => .error .denied

/-! ## New processes -/

/-- The variables that have the same values in every new process, whatever the environment
says; one of them is the number of the process that has started it. -/
def firstBindings (parent : Nat) : List (Text × Text) :=
  [("IFS", " \t\n"), ("OPTIND", "1"), ("PPID", Text.ofInt parent)]

/-- The variables that a process has unless the environment gives them other values. -/
def usualBindings : List (Text × Text) :=
  [("PATH", "/usr/local/sbin:/usr/local/bin:/usr/sbin:/usr/bin:/sbin:/bin"), ("PS1", "# "),
   ("PS2", "> "), ("PS4", "+ ")]

/-- The variables of a process that is started with an environment in a directory with
the given path. Those that the environment has are passed on. -/
def bindingsOf (parent : Nat) (environment : Environment) (path : Text) :
    List (Text × Variable) :=
  let fixed := firstBindings parent
  let given := environment.filter fun (name, _) => isName name && name ≠ "PWD"
  let others := (fixed ++ usualBindings).filter fun (name, _) =>
    ! given.any (·.1 = name)
  let bind (exported : Bool) : Text × Text → Text × Variable := fun (name, value) =>
    (name, ⟨some ((fixed.lookup name).getD value), exported, false⟩)
  bind true ("PWD".toList, path) :: given.map (bind true) ++ others.map (bind false)

/-- The path of a directory: the one that the environment tells, if it leads there. -/
def startPath (t : Tree) (directory : Location) (environment : Environment) : Text :=
  match environment.value? "PWD" with
  | some path =>
    match Path.isAbsolute path, t.locate [] (textOf path) with
    | true, .ok place => if place = directory then path else bytesOf directory.toPath
    | _, _ => bytesOf directory.toPath
  | none => bytesOf directory.toPath

/-- **Birth** — what a process that begins to run a program keeps or is given: its number
and the one of the process that has started it, its clock and its descriptors. -/
structure Birth where
  number : Nat
  parent : Option Nat
  clock : Nat
  descriptors : List (Nat × Nat)

/-- A process that begins to run a program. -/
def Process.start (t : Tree) (name : Text) (environment : Environment) (directory : Location)
    (birth : Birth) : Process where
  number := birth.number
  parent := birth.parent
  identity := birth.number
  clock := birth.clock
  halted := false
  name := name
  parameters := []
  bindings := bindingsOf (birth.parent.getD 0) environment (startPath t directory environment)
  scopes := []
  functions := []
  aliases := []
  known := []
  traps := []
  ignored := []
  caught := []
  jobs := []
  options := []
  directory := directory
  path := startPath t directory environment
  mask := 0o022
  descriptors := birth.descriptors
  kept := []
  unwritten := []
  status := 0
  substituted := 0
  line := 0
  lineRead := 1
  command := none
  depth := 0
  loops := 0
  skip := .none
  skipCount := 0
  savedStatus := none
  optionIndex := 1
  optionOffset := none
  background := none
  marking := false
  ahead := false
  isLast := false
  limits := []

/-- A machine on which a process is about to run: its input is empty, and its output and
its errors are collected. The files at the locations `busy` are open for writing. -/
def Machine.start (t : Tree) (busy : List Location) (environment : Environment)
    (directory : Location) : Machine where
  process := Process.start t "/bin/sh"
    (environment.map fun (name, value) => (bytesOf name, bytesOf value)) directory
    ⟨firstNumber, some outsideNumber, 0, [(0, 0), (1, 1), (2, 2)]⟩
  others := []
  ended := []
  sent := []
  tree := t
  contents := #[]
  busy := busy
  files := #[.device .null .readWrite, .collector [], .collector []]
  documents := []
  documentCount := 0
  started := firstNumber
  horizon := 0

end LineShell.Script
