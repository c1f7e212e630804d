/-
# LineShell.Script.Builtins.Streams -- builtins that write, decide or read

`echo` and `printf` write their arguments, and `test` finds out whether a condition
holds.

`read` takes a line from the input and cuts it into fields, one for each variable. All
fields that are left over belong to the last variable, with the separators between
them; blanks at its end are dropped, and a separator behind a single field. A backslash
protects the next byte; with a line feed it stands for nothing.

`getopts` takes the next option out of a list of arguments, each time it is called.
-/

import LineShell.Script.Builtins.Arguments
import LineShell.Script.Format

namespace LineShell.Script.Step

/-! ## Writing and deciding -/

/-- Writes the arguments with spaces between them. -/
def echo : Builtin := fun arguments => put (Escape.echo arguments)

/-- Writes the arguments by a format. -/
def printf : Builtin := fun arguments => do
  match (← options [] arguments).2 with
  | [] => fail "usage: printf format [arg ...]"
  | format :: arguments =>
    let w := Format.write format arguments
    w.warnings.reverse.forM warn
    match w.ended with
    | some (some message) =>
      warn message
      let _ ← put w.output.reverse.flatten
      return 2
    | _ =>
      let status ← put w.output.reverse.flatten
      return if w.warnings = [] then status else 1

/-- Finds out whether a condition holds. -/
def test : Builtin := fun words => do
  match Condition.holds (fileTests (← get)) words with
  | .ok holds => return if holds then 0 else 1
  | .error message => fail message

/-- The same, with a word behind the condition that begins with a closing bracket. -/
def bracket : Builtin := fun words => do
  if (words.getLast?.bind List.head?) = some ']' then test words.dropLast
  else fail "missing ]"

/-! ## Lines -/

/-- **Draft** — what has been read of a line: the letters, the last one first, those that a
backslash protects marked as quoted; and whether such a backslash has just been read. -/
structure LineDraft where
  letters : Pattern
  protecting : Bool

/-- What a line comes to with more bytes, how many of them belong to it, and whether they
end it. NUL is passed over. -/
def scanLine (raw : Bool) : Text → LineDraft → Nat → LineDraft × Nat × Bool
  | [], d, count => (d, count, false)
  | c :: rest, d, count =>
    if c = '\x00' then scanLine raw rest d (count + 1)
    else if d.protecting then
      let letters := if c = '\n' then d.letters else ⟨c, true⟩ :: d.letters
      scanLine raw rest ⟨letters, false⟩ (count + 1)
    else if c = '\n' then (d, count + 1, true)
    else if c = '\\' ∧ ¬ raw then scanLine raw rest { d with protecting := true } (count + 1)
    else scanLine raw rest { d with letters := ⟨c, false⟩ :: d.letters } (count + 1)

/-- How many bytes are looked at together. -/
def lineChunk : Nat := 128

/-- Reads a line from an open file, and tells whether the line has an end. -/
def readLineFrom (raw : Bool) (index : Nat) : Nat → LineDraft → Step (Pattern × Bool)
  | 0, d => return (d.letters.reverse, false)
  | fuel + 1, d => do
    match ← peekBytes true index lineChunk with
    | [] => return (d.letters.reverse, false)
    | bytes =>
      let (d, count, ends) := scanLine raw bytes d 0
      passBytes index count
      if ends then return (d.letters.reverse, true) else readLineFrom raw index fuel d

/-- How often bytes of one line are asked for. -/
def lineLimit : Nat := 100000

/-- Reads a line from the input. -/
def readLine (raw : Bool) : Step (Pattern × Bool) := do
  match ← openFile? 0 with
  | some (index, _) => readLineFrom raw index lineLimit ⟨[], false⟩
  | none => return ([], false)

/-- The letter separates fields. -/
def separates (separators : Text) (letter : Letter) : Bool :=
  letter.char ∈ separators && ! letter.quoted

def separatesAsBlank (separators : Text) (letter : Letter) : Bool :=
  separates separators letter && Field.isBlank letter.char

/-- **Tail** — what is known about the end of the letters read so far: from where on they
may be dropped, whether a separator was met, and whether one more may follow it. -/
structure Tail where
  cut : Option Nat
  met : Bool
  mayTake : Bool

/-- What is known behind one more letter. Quoted letters change nothing. -/
def Tail.step (separators : Text) (t : Tail) (index : Nat) (letter : Letter) : Tail :=
  if letter.quoted then t
  else
    let isSeparator := separates separators letter
    let isBlank := separatesAsBlank separators letter
    if ¬ t.met then
      if isSeparator then ⟨some index, true, isBlank⟩ else t
    else if isBlank then { t with cut := some (t.cut.getD index) }
    else ⟨if isSeparator ∧ t.mayTake then t.cut else none, true, false⟩

/-- The letters of the last variable. -/
def lastField (separators : Text) (letters : Pattern) : Text :=
  let tail := letters.zipIdx.foldl
    (fun (t : Tail) (letter, index) => t.step separators index letter) ⟨none, false, false⟩
  Pattern.toText (match tail.cut with
    | some index => letters.take index
    | none => letters)

/-- The letters behind a separator and the blanks around it. -/
def behindSeparator (separators : Text) (letters : Pattern) : Pattern :=
  let behind := letters.dropWhile (separatesAsBlank separators)
  match behind with
  | letter :: rest =>
    if separates separators letter then rest.dropWhile (separatesAsBlank separators) else behind
  | [] => []

/-- The fields for a number of variables. -/
def lineFields (separators : Text) : Nat → Pattern → List Text
  | 0, _ => []
  | 1, letters => [lastField separators letters]
  | count + 1, letters =>
    let field := letters.takeWhile (! separates separators ·)
    Pattern.toText field :: lineFields separators count
      (behindSeparator separators (letters.drop field.length))

/-- Reads a line into variables. -/
def read : Builtin := fun arguments => do
  let (given, names) ← options "p:r" arguments
  if names = [] then fail "arg count"
  let (letters, ended) ← readLine (given.any (·.1 = 'r'))
  let separators ← separators
  let fields := lineFields separators names.length
    (letters.dropWhile (separatesAsBlank separators))
  (names.zip fields).forM fun (name, field) => setVariable name field
  return if ended then 0 else 1

/-! ## Options of a script -/

/-- A variable gets a value without any effect on how options are read. -/
def note (name value : Text) : Step Unit := do
  let old ← binding? name
  refuseReadOnly name old
  bind name (some
    { value := some value
      exported := (← hasOption 'a') || (old.map (·.exported)).getD false
      readOnly := false })

/-- The letters of the argument in which the next option stands, and the index of the
argument behind it; `none` if there is no option left. -/
def optionWord (arguments : List Text) (index : Nat) (offset : Option Nat) :
    Option Text × Nat :=
  let current : Text := match offset with
    | some offset => if 1 < index then (arguments.getD (index - 2) []).drop offset else []
    | none => []
  if current ≠ [] then (some current, index)
  else match arguments[index - 1]? with
    | some ['-', '-'] => (none, index + 1)
    | some ('-' :: letter :: letters) => (some (letter :: letters), index + 1)
    | _ => (none, index)

/-- What `getopts` found: the letter to be noted, where to go on, and the letters left in
the argument. -/
structure Found where
  letter : Char
  index : Nat
  left : Option Text

/-- The option at the front of letters. -/
def takeOption (allowed : Text) (arguments : List Text) (index : Nat) (letter : Char)
    (letters : Text) : Step Found := do
  let quiet := allowed.head? = some ':'
  match optionKind? allowed letter with
  | none =>
    if quiet then setVariable "OPTARG" [letter]
    else
      complain ("Illegal option -" ++ [letter])
      unsetVariable "OPTARG"
    return ⟨'?', index, some letters⟩
  | some false =>
    setVariable "OPTARG" []
    return ⟨letter, index, some letters⟩
  | some true =>
    match letters, arguments[index - 1]? with
    | _ :: _, _ =>
      setVariable "OPTARG" letters
      return ⟨letter, index, none⟩
    | [], some value =>
      setVariable "OPTARG" value
      return ⟨letter, index + 1, none⟩
    | [], none =>
      if quiet then
        setVariable "OPTARG" [letter]
        return ⟨':', index, some letters⟩
      else
        complain ("No arg for -" ++ letter :: " option".toList)
        unsetVariable "OPTARG"
        return ⟨'?', index, some letters⟩

/-- Takes the next option. -/
def getopts : Builtin := fun arguments => do
  match arguments with
  | allowed :: name :: given =>
    let p ← ask id
    let arguments := if given = [] then p.parameters else given
    let (index, offset) := if arguments.length + 1 < p.optionIndex then (1, none)
      else (p.optionIndex, p.optionOffset)
    change ({ · with optionIndex := 1, optionOffset := none })
    let keep (letter : Char) (index : Nat) (left : Option Text) : Step Unit := do
      note "OPTIND" (Text.ofInt index)
      setVariable name [letter]
      let offset := left.map fun left => (arguments.getD (index - 2) []).length - left.length
      change ({ · with optionIndex := index, optionOffset := offset })
    match optionWord arguments index offset with
    | (some (letter :: letters), index) =>
      let found ← takeOption allowed arguments index letter letters
      keep found.letter found.index found.left
      return 0
    | (_, index) =>
      keep '?' index none
      return 1
  | _ => fail "Usage: getopts optstring var [arg...]"

end LineShell.Script.Step
