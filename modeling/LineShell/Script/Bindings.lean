/-
# LineShell.Script.Bindings -- variables and parameters

A process gives values to variables. A variable may be marked: so that programs get it, or
so that it cannot change. In a function variables may be kept locally; they get back what
they were when the function is left.

A parameter is a variable, an argument of the script, or something that is known about the
process.
-/

import LineShell.Script.Descriptors

namespace LineShell.Script.Step

/-! ## Variables -/

/-- The variable of a name. -/
def binding? (name : Text) : Step (Option Variable) := ask (·.bindings.lookup name)

/-- The value of a variable. -/
def value? (name : Text) : Step (Option Text) :=
  return (← binding? name).bind (·.value)

def hasOption (letter : Char) : Step Bool := ask (·.options.contains letter)

/-- The bindings with a name bound anew, or no more. -/
def rebind (bindings : List (Text × Variable)) (name : Text) : Option Variable →
    List (Text × Variable)
  | none => bindings.filter (·.1 ≠ name)
  | some v =>
    if bindings.any (·.1 = name) then
      bindings.map fun (other, old) => (other, if other = name then v else old)
    else (name, v) :: bindings

def bind (name : Text) (v : Option Variable) : Step Unit :=
  change fun p => { p with bindings := rebind p.bindings name v }

/-- The count that a text denotes, blanks around it aside; it fits in 32 bits with a
sign. -/
def natural (text : Text) : Step Nat := do
  match integer? 10 text with
  | some (.ofNat n) =>
    if n ≤ 0x7fffffff then return n else fail ("Illegal number: " ++ text)
  | _ => fail ("Illegal number: " ++ text)

/-- What else changes with a variable: setting where options are read begins with a whole
argument again, and on a new search path nothing has been found. -/
def noteChange (name value : Text) : Step Unit := do
  if name = "OPTIND" then
    let index ← natural value
    change ({ · with optionIndex := max 1 index, optionOffset := none })
  else if name = "PATH" then change ({ · with known := [] })

/-- A variable that is read-only cannot change. -/
def refuseReadOnly (name : Text) (old : Option Variable) : Step Unit := do
  if (old.map (·.readOnly)).getD false then fail (name ++ ": is read only")

/-- The name of a variable at the front of a text that may be an assignment. -/
def nameIn (text : Text) : Step Text := do
  let name := text.takeWhile (· ≠ '=')
  if ¬ isName name then fail (name ++ ": bad variable name")
  return name

/-- A variable gets a value, and maybe the marks of being exported and of being kept. -/
def assign (text : Text) (value : Option Text) (exported readOnly : Bool) : Step Unit := do
  let name ← nameIn text
  let old ← binding? name
  match value with
  | some value =>
    refuseReadOnly name old
    noteChange name value
  | none => pure ()
  let all ← hasOption 'a'
  bind name (some
    { value := value.orElse fun _ => old.bind (·.value)
      exported := exported || all || (old.map (·.exported)).getD false
      readOnly := readOnly || (old.map (·.readOnly)).getD false })

/-- A variable gets a value. -/
def setVariable (name value : Text) : Step Unit := assign name (some value) false false

/-- The variables that are there even without a value. -/
def lastingVariables : List Text :=
  ["HISTSIZE", "IFS", "MAIL", "MAILPATH", "OPTIND", "PATH", "PS1", "PS2", "PS4", "TERM"]

/-- A variable loses its value and its marks. One that lasts, or is kept locally, goes on
being exported. -/
def unsetVariable (name : Text) : Step Unit := do
  match ← binding? name with
  | some v =>
    refuseReadOnly name v
    noteChange name []
    let isLocal := (← ask (·.scopes)).any fun scope => scope.bindings.any (·.1 = name)
    bind name (if (name ∈ lastingVariables ∨ isLocal) ∧ v.exported then
      some { v with value := none } else none)
  | none => return ()

/-- The variable keeps what it is until the current function is left. -/
def keepLocally (name : Text) : Step Unit := do
  let old ← binding? name
  change fun p =>
    match p.scopes with
    | scope :: outer =>
      { p with scopes := { scope with bindings := (name, old) :: scope.bindings } :: outer }
    | [] => p

/-- The options keep what they are until the current function is left. -/
def keepOptions : Step Unit :=
  change fun p =>
    match p.scopes with
    | scope :: outer =>
      let options := scope.options.orElse fun _ => p.options
      { p with scopes := { scope with options } :: outer }
    | [] => p

/-- The innermost scope is left: the variables and options kept in it become what they
were. -/
def leaveScope : Step Unit := do
  match ← ask (·.scopes) with
  | scope :: outer =>
    change fun p => { p with scopes := outer, options := scope.options.getD p.options }
    scope.bindings.forM fun (name, old) => do
      match old.bind (·.value) with
      | some value => noteChange name value
      | none => pure ()
      bind name old
    match scope.bindings.find? fun (name, _) => ! isName name with
    | some (name, _) => fail (name ++ ": bad variable name")
    | none => return ()
  | [] => return ()

/-- Runs a step in a scope of its own. -/
def inScope {α : Type} (step : Step α) : Step α := do
  change fun p => { p with scopes := ⟨[], none⟩ :: p.scopes }
  let result ← tryCatch step fun why => do
    leaveScope
    throw why
  leaveScope
  return result

/-- The separators of fields. -/
def separators : Step Text := return (← value? "IFS").getD " \t\n"

/-- The value of a parameter: of an argument, of what is known about the process, or of
a variable. -/
def parameter? (name : Text) : Step (Option Text) := do
  let p ← ask id
  match name with
  | ['?'] => return some (Text.ofInt p.status)
  | ['#'] => return some (Text.ofInt p.parameters.length)
  | ['$'] => return some (Text.ofInt p.identity)
  | ['!'] => return p.background.map fun n => Text.ofInt n
  | ['-'] => return some ((("pubaCEVvxsnmiIfe" : Text)).filter p.options.contains)
  | _ =>
    match number? name with
    | some 0 => return some p.name
    | some (n + 1) => return p.parameters[n]?
    | none => value? name

/-- The environment that programs are given. -/
def environment : Step Environment :=
  ask fun p => p.bindings.filterMap fun (name, v) =>
    match v.value with
    | some value => if v.exported then some (name, value) else none
    | none => none

end LineShell.Script.Step
