/-
# LineShell.Script.Builtins.Binding -- builtins that bind names

These builtins give values to variables, mark them, show them and take them away; they
set the arguments and the options of the script, and give names to commands (aliases).
-/

import LineShell.Script.Builtins.Arguments

namespace LineShell.Script.Step

/-! ## Showing -/

/-- Texts in the order of their bytes. -/
def sorted (names : List Text) : List Text := names.mergeSort precedesOrEqual

/-- The variables that a test picks, each with a word in front. -/
def listing (word : Text) (picks : Variable → Bool) : Step Int := do
  let bindings := (← ask (·.bindings)).filter fun (_, v) => picks v
  putLines ((sorted (bindings.map (·.1))).map fun name =>
    (if word = [] then [] else word ++ [' ']) ++ name ++
      match (bindings.lookup name).bind (·.value) with
      | some value => '=' :: shellQuoted value
      | none => [])

/-! ## Variables -/

/-- The name and the value in an argument. -/
def splitAssignment (argument : Text) : Text × Option Text :=
  match argument.dropWhile (· ≠ '=') with
  | _ :: value => (argument.takeWhile (· ≠ '='), some value)
  | [] => (argument, none)

/-- Marks variables as exported or as read-only, or shows those that are. Only the first
option is read. -/
def mark (word : Text) (exported : Bool) : Builtin := fun arguments => do
  let (given, names) ← match arguments.head? with
    | some ('-' :: 'p' :: _) => pure (true, [])
    | _ => do pure (false, (← options "p" arguments).2)
  if given ∨ names = [] then
    listing word fun v => if exported then v.exported else v.readOnly
  else
    names.forM fun argument => do
      let (name, value) := splitAssignment argument
      assign name value exported (! exported)
    return 0

/-- Variables get their old values back when the function is left. With a value a variable
may have any name here, but then it cannot be taken away. -/
def keep : Builtin := fun arguments => do
  if (← ask (·.scopes)).isEmpty then fail "not in a function"
  arguments.forM fun argument => do
    let (name, value) := splitAssignment argument
    if argument = ['-'] then
      keepOptions
      return ()
    match value with
    | some value =>
      keepLocally name
      if isName name then setVariable name value
      else bind name (some ⟨some value, false, false⟩)
    | none =>
      keepLocally (← nameIn name)
  return 0

/-- Takes variables or functions away. -/
def unset : Builtin := fun arguments => do
  let (given, names) ← options "vf" arguments
  let ofFunctions := given.getLast?.map (·.1) = some 'f'
  names.forM fun name =>
    if ofFunctions then
      change fun p => { p with functions := p.functions.filter (·.1 ≠ name) }
    else do
      unsetVariable (← nameIn name)
  return 0

/-! ## Arguments and options of the script -/

/-- The script has other arguments. -/
def setParameters (parameters : List Text) : Step Unit :=
  change ({ · with parameters, optionIndex := 1, optionOffset := none })

/-- The options by name, with their letters. -/
def optionNames : List (Text × Char) :=
  [("errexit", 'e'), ("noglob", 'f'), ("ignoreeof", 'I'), ("interactive", 'i'),
   ("monitor", 'm'), ("noexec", 'n'), ("stdin", 's'), ("xtrace", 'x'), ("verbose", 'v'),
   ("vi", 'V'), ("emacs", 'E'), ("noclobber", 'C'), ("allexport", 'a'), ("notify", 'b'),
   ("nounset", 'u'), ("privileged", 'p'), ("nolog", '\x01'), ("debug", '\x02')]

/-- An option is switched on or off. -/
def switch (letter : Char) (on : Bool) : Step Unit :=
  change fun p =>
    { p with
      options := (if on then [letter] else []) ++ p.options.filter (· ≠ letter) }

/-- The option that is switched off with the letter of another one. -/
def rival? (letter : Char) : Option Char :=
  if letter = 'V' then some 'E' else if letter = 'E' then some 'V' else none

/-- An option by its letter. -/
def switchLetter (letter : Char) (on : Bool) : Step Unit := do
  if letter.isAlpha ∧ optionNames.any (·.2 = letter) then
    switch letter on
    match rival? letter with
    | some other => if on then switch other false
    | none => return ()
  else fail ("Illegal option -" ++ [letter])

/-- An option by its name. -/
def switchName (name : Text) (on : Bool) : Step Unit := do
  match optionNames.lookup name with
  | some letter => switch letter on
  | none => fail ("Illegal option -o " ++ name)

/-- Shows the options, as a table or as commands. -/
def showOptions (asTable : Bool) : Step Unit := do
  let on ← ask (·.options)
  let lines := optionNames.map fun (name, letter) =>
    if asTable then
      name ++ List.replicate (16 - name.length) ' ' ++ (if letter ∈ on then "on" else "off")
    else "set " ++ (if letter ∈ on then ['-'] else ['+']) ++ "o " ++ name
  let _ ← putLines ((if asTable then ["Current option settings".toList] else []) ++ lines)

/-- Switches the options whose letters are given; the option that is named by the next
argument is among them. -/
def switchLetters (on : Bool) : Text → List Text → Step (List Text)
  | [], rest => return rest
  | 'o' :: letters, rest => do
    match rest with
    | name :: rest =>
      switchName name on
      switchLetters on letters rest
    | [] =>
      showOptions on
      switchLetters on letters []
  | letter :: letters, rest => do
    switchLetter letter on
    switchLetters on letters rest

/-- Switches the options in front of arguments; the arguments left are those of the
script, if there are to be new ones. -/
def switchOptions : Nat → List Text → Step (Option (List Text))
  | 0, arguments => return some arguments
  | fuel + 1, arguments => do
    match arguments with
    | ['-'] :: rest =>
      switch 'x' false
      switch 'v' false
      return if rest = [] then none else some rest
    | ['-', '-'] :: rest => return some rest
    | ('-' :: letters) :: rest => switchOptions fuel (← switchLetters true letters rest)
    | ('+' :: letters) :: rest => switchOptions fuel (← switchLetters false letters rest)
    | [] => return none
    | arguments => return some arguments

/-- Without a terminal there are no jobs to be controlled. -/
def refuseJobControl : Step Unit := do
  if ← hasOption 'm' then
    warn "can\x27t access tty; job control turned off"
    switch 'm' false

/-- Sets options and arguments, or shows the variables. -/
def setOptions : Builtin := fun arguments => do
  if arguments = [] then listing [] fun v => v.value.isSome
  else
    let given ← switchOptions (arguments.length + 1) arguments
    refuseJobControl
    match given with
    | some parameters => setParameters parameters
    | none => pure ()
    return 0

/-- Drops arguments of the script. -/
def shift : Builtin := fun arguments => do
  let count ← match arguments with
    | [] => pure 1
    | count :: _ => natural count
  let parameters ← ask (·.parameters)
  if parameters.length < count then fail "can\x27t shift that many"
  setParameters (parameters.drop count)
  return 0

/-! ## Aliases -/

/-- The alias as it is shown. -/
def aliasLine (name text : Text) : Text := name ++ '=' :: shellQuoted text

/-- The name and the text in the argument of an alias; the first letter belongs to the
name, whatever it is. -/
def aliasParts (argument : Text) : Text × Option Text :=
  let (name, text) := splitAssignment argument.tail
  (argument.take 1 ++ name, text)

/-- Makes or shows aliases. -/
def giveAlias : Builtin := fun arguments => do
  if arguments = [] then
    putLines ((Bucket.aliases (← ask (·.aliases))).map fun (name, text) => aliasLine name text)
  else
    let statuses ← arguments.mapM fun argument => do
      match aliasParts argument with
      | (name, some text) =>
        change fun p => { p with aliases := Bucket.put name text p.aliases }
        return (0 : Int)
      | (name, none) =>
        match (← ask (·.aliases)).lookup name with
        | some text => putLines [aliasLine name text]
        | none =>
          complain ("alias: " ++ name ++ " not found")
          return 1
    return if statuses.all (· = 0) then 0 else 1

/-- Takes aliases away. Behind the option for all of them nothing is read. -/
def dropAlias : Builtin := fun arguments => do
  match arguments.head? with
  | some ('-' :: 'a' :: _) =>
    change ({ · with aliases := [] })
    return 0
  | _ =>
    let (_, names) ← options "a" arguments
    let statuses ← names.mapM fun name => do
      if (← ask (·.aliases)).any (·.1 = name) then
        change fun p => { p with aliases := p.aliases.filter (·.1 ≠ name) }
        return (0 : Int)
      else
        complain ("unalias: " ++ name ++ " not found")
        return 1
    return if statuses.all (· = 0) then 0 else 1

end LineShell.Script.Step
