/-
# LineShell.Script.Builtins.Arguments -- what builtins have in common

A builtin takes arguments and gives a status. Its options are letters behind a hyphen,
maybe several together and maybe with a value. What it writes goes to the output at
once; it fails if the output takes no more.
-/

import LineShell.Script.Files

namespace LineShell.Script

/-- **Builtin** — what a command of the script language itself does with its arguments;
the result is its status. -/
abbrev Builtin := List Text → Step Int

namespace Step

/-- The letter is among the options, and whether a value belongs to it. -/
def optionKind? (allowed : Text) (letter : Char) : Option Bool :=
  match allowed with
  | [] => none
  | c :: rest =>
    if c = letter then some (rest.head? = some ':')
    else optionKind? (rest.dropWhile (· = ':')) letter
termination_by allowed.length
decreasing_by
  have := (List.dropWhile_suffix (l := rest) (fun c => decide (c = ':'))).length_le
  simp only [List.length_cons]
  omega

/-- **Option check** — what is done about an option and its value as soon as it has been
read, in front of those that follow. -/
abbrev OptionCheck := Char → Text → Step Unit

/-- The options among letters that stand behind one hyphen, and the arguments that are left;
a value is the rest of the letters or the next argument. -/
def optionLetters (check : OptionCheck) (allowed : Text) :
    Text → List Text → Step (List (Char × Text) × List Text)
  | [], rest => return ([], rest)
  | letter :: letters, rest => do
    let last (value : Text) (rest : List Text) : Step (List (Char × Text) × List Text) := do
      check letter value
      return ([(letter, value)], rest)
    match optionKind? allowed letter with
    | none => fail ("Illegal option -" ++ [letter])
    | some false =>
      check letter []
      let (more, rest) ← optionLetters check allowed letters rest
      return ((letter, []) :: more, rest)
    | some true =>
      match letters, rest with
      | _ :: _, rest => last letters rest
      | [], value :: rest => last value rest
      | [], [] => fail ("No arg for -" ++ letter :: " option".toList)

/-- The options in front of arguments, and the arguments behind them; two hyphens end the
options. The letters that are allowed have a colon behind them if they take a value. -/
def optionsWithin (check : OptionCheck) (allowed : Text) :
    Nat → List Text → Step (List (Char × Text) × List Text)
  | 0, arguments => return ([], arguments)
  | fuel + 1, arguments => do
    match arguments with
    | ['-', '-'] :: rest => return ([], rest)
    | ('-' :: letter :: letters) :: rest =>
      let (first, rest) ← optionLetters check allowed (letter :: letters) rest
      let (more, rest) ← optionsWithin check allowed fuel rest
      return (first ++ more, rest)
    | _ => return ([], arguments)

/-- The options of a builtin, each checked when it is met, and its other arguments. -/
def checkedOptions (check : OptionCheck) (allowed : Text) (arguments : List Text) :
    Step (List (Char × Text) × List Text) :=
  optionsWithin check allowed arguments.length arguments

/-- The options of a builtin and its other arguments. -/
def options (allowed : Text) (arguments : List Text) : Step (List (Char × Text) × List Text) :=
  checkedOptions (fun _ _ => return ()) allowed arguments

/-- Text is to be written to the output when the builtin is done. -/
def put (text : Text) : Step Int := do
  change fun p => { p with unwritten := text :: p.unwritten }
  return 0

/-- What a builtin has put is written; the answer tells whether that succeeds. -/
def flush : Step Bool := do
  let text := (← ask (·.unwritten)).reverse.flatten
  change ({ · with unwritten := [] })
  write 1 text

/-- Lines are to be written to the output. -/
def putLines (lines : List Text) : Step Int := put (lines.flatMap (· ++ ['\n']))

end Step

/-- A text between quotation marks, as it could be written in a script. -/
def shellQuotedWithin : Nat → Text → Text
  | 0, _ => []
  | fuel + 1, text =>
    let plain := text.takeWhile (· ≠ '\x27')
    let behind := text.drop plain.length
    let marks := behind.takeWhile (· = '\x27')
    let rest := behind.drop marks.length
    '\x27' :: plain ++ '\x27' ::
      (if marks = [] then []
       else '"' :: marks ++ '"' :: if rest = [] then [] else shellQuotedWithin fuel rest)

def shellQuoted (text : Text) : Text := shellQuotedWithin (text.length + 1) text

end LineShell.Script
