/-
# LineShell.Script.Builtins.Place -- builtins about directories

`cd` changes the directory of the process. The path of the directory is kept as it was
spelled: names that go up take the last name off it. On demand the path without links is
used instead. `pwd` shows the path.
-/

import LineShell.Script.Builtins.Arguments

namespace LineShell.Script.Step

/-- The path without its last name, in reverse; the slash in front of that stays, and so
do the first `kept` characters. -/
def withoutLast (kept : Nat) : Text → Text
  | [] => []
  | c :: rest =>
    if rest.length < kept then c :: rest
    else if rest.head? = some '/' then rest
    else withoutLast kept rest

/-- The path in reverse after one more name. -/
def entering (kept : Nat) (reversed name : Text) : Text :=
  if name = [] ∨ name = ['.'] then reversed
  else if name = ['.', '.'] then withoutLast kept reversed
  else '/' :: name.reverse ++ reversed

/-- A path taken from a directory, as it is spelled: a name that goes up takes the name in
front of it off. -/
def spelled (directory path : Text) : Text :=
  let base : Text := if Path.isAbsolute path then CleanPath.rootOf path
    else if directory.getLast? = some '/' then directory else directory ++ ['/']
  let kept := if ['/', '/'].isPrefixOf base then 2 else 1
  let reversed := (Text.pieces '/' path).foldl (entering kept) base.reverse
  if kept < reversed.length then reversed.tail.reverse else reversed.reverse

/-- The path of a location. -/
def placePath (place : Location) : Text := bytesOf place.toPath

/-- The location that a path names, if it is a directory. -/
def directory? (path : Text) : Step (Option Location) := do
  match ← locate path with
  | .ok place => return if (← get).tree.isDirectory place then some place else none
  | .error _ => return none

/-- The directory of the process becomes the one that a path names; the flag asks for a
path without links. Answers whether that succeeds. -/
def moveTo (path : Text) (physical : Bool) : Step Bool := do
  let old ← ask (·.path)
  let written := spelled old path
  match ← directory? (if physical then path else written) with
  | none => return false
  | some place =>
    let new := if physical then placePath place else written
    change fun p =>
      { p with
        directory := place
        path := new
        known := p.known.map fun (name, known) => (name, { known with stale := true }) }
    assign "OLDPWD" (some old) true false
    assign "PWD" (some new) true false
    return true

/-- The path is taken from the current directory, not from others. -/
def isFixed (path : Text) : Bool :=
  Path.isAbsolute path || path = ['.'] || path = ['.', '.']
    || ['.', '/'].isPrefixOf path || ['.', '.', '/'].isPrefixOf path

/-- The first directory among paths. -/
def firstDirectory : List (Text × Bool) → Step (Option (Text × Bool))
  | [] => return none
  | (path, shown) :: rest => do
    if (← directory? path).isSome then return some (path, shown) else firstDirectory rest

/-- Whether the options ask for a path without links; the last one counts. -/
def asksPhysical (given : List (Char × Text)) : Bool := given.getLast?.map (·.1) = some 'P'

/-- Changes the directory. -/
def cd : Builtin := fun arguments => do
  let (given, arguments) ← options "LP" arguments
  let (written, back) ← match arguments with
    | [] => do pure ((← value? "HOME").getD [], false)
    | ['-'] :: _ => do pure ((← value? "OLDPWD").getD [], true)
    | path :: _ => pure (path, false)
  let path : Text := if written = [] then ['.'] else written
  let (path, shown) ←
    if isFixed path then pure (path, back)
    else do
      let others := match ← value? "CDPATH" with
        | some directories => (Text.pieces ':' directories).map fun directory =>
            if directory = [] then (path, back) else (directory ++ '/' :: path, true)
        | none => []
      pure ((← firstDirectory others).getD (path, back))
  if ← moveTo path (asksPhysical given) then
    if shown then putLines [← ask (·.path)] else return 0
  else fail ("can\x27t cd to " ++ written)

/-- Shows the directory. -/
def pwd : Builtin := fun arguments => do
  let (given, _) ← options "LP" arguments
  let p ← ask id
  putLines [if asksPhysical given then placePath p.directory else p.path]

/-! ## Permissions of new files -/

/-- The letters of permissions. -/
def permissionLetters (bits : Nat) : Text :=
  (if bits / 4 % 2 = 1 then ['r'] else []) ++ (if bits / 2 % 2 = 1 then ['w'] else [])
    ++ (if bits % 2 = 1 then ['x'] else [])

/-- The permissions that new files do not get, as octal digits. -/
def maskDigits (mask : Nat) : Text :=
  let digits := Nat.toDigits 8 mask
  List.replicate (4 - digits.length) '0' ++ digits

/-- The permissions that new files may get, as letters. -/
def maskLetters (mask : Nat) : Text :=
  let kept := 511 - mask % 512
  "u=" ++ permissionLetters (kept / 64) ++ ",g=" ++ permissionLetters (kept / 8 % 8)
    ++ ",o=" ++ permissionLetters (kept % 8)

/-- The bits for whom a clause of a mode is meant, one for each of them. -/
def audience (letters : Text) : Nat :=
  let one (c : Char) (bit : Nat) : Nat :=
    if c ∈ letters ∨ 'a' ∈ letters ∨ letters = [] then bit else 0
  one 'u' 0o100 ||| one 'g' 0o010 ||| one 'o' 0o001

/-- The permissions, between 0 and 7, that letters stand for, where `kept` are those that
new files get so far. -/
def permissions (kept : Nat) (letters : Text) : Nat :=
  let one (bits : Nat) (c : Char) : Nat :=
    bits ||| match c with
      | 'r' => 4
      | 'w' => 2
      | 'x' => 1
      | 'u' => kept / 64
      | 'g' => kept / 8
      | 'o' => kept
      | 'X' => if kept &&& 0o111 = 0 then 0 else 1
      | _ => 0
  letters.foldl one 0 % 8

/-- The permissions after the changes that stand behind those whom they are meant for, such
as `+x` or `=r-w`, and what stands behind these changes. The fuel is more than the length
of the text. -/
def applyChanges (kept audience : Nat) : Nat → Nat → Text → Nat × Text
  | 0, new, text => (new, text)
  | fuel + 1, new, text =>
    match text with
    | [] => (new, [])
    | operator :: rest =>
      let letters := rest.takeWhile (· ∈ ("rwxugoXs" : Text))
      let bits := permissions kept letters * audience
      let behind := rest.drop letters.length
      if operator = '=' then
        applyChanges kept audience fuel (bits ||| (new &&& (511 - audience * 7))) behind
      else if operator = '+' then applyChanges kept audience fuel (new ||| bits) behind
      else if operator = '-' then applyChanges kept audience fuel (new &&& (511 - bits)) behind
      else (new, text)

/-- The permissions after one clause of a mode, such as `u+x`. -/
def applyClause (kept new : Nat) (clause : Text) : Option Nat :=
  let who := clause.takeWhile (· ∈ ("augo" : Text))
  let changes := clause.drop who.length
  match applyChanges kept (audience who) (changes.length + 1) new changes with
  | (new, []) => some new
  | _ => none

/-- Sets or shows the permissions that new files do not get. -/
def umask : Builtin := fun arguments => do
  let (given, arguments) ← options "S" arguments
  match arguments with
  | [] =>
    let mask ← ask (·.mask)
    putLines [if given = [] then maskDigits mask else maskLetters mask]
  | mode :: _ =>
    if (mode.head?.map Char.isDigit).getD false then
      if mode.all isOctalDigit then
        change ({ · with mask := numberIn 8 mode % 512 })
        return 0
      else fail ("Illegal number: " ++ mode)
    else
      let before := 511 - (← ask (·.mask))
      let kept := (Text.pieces ',' mode).foldl
        (fun new clause => new.bind (applyClause before · clause)) (some before)
      match kept with
      | some kept =>
        change ({ · with mask := 511 - kept })
        return 0
      | none => fail ("Illegal mode: " ++ mode)

end LineShell.Script.Step
