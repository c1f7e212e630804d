/-
# LineShell.Script.Builtins.Limits -- the builtin about limits

`ulimit` shows or sets how much of something a process may use. Every limit has two
values: the one that holds, and the one up to which that may be raised. The second one can
only be made smaller.
-/

import LineShell.Script.Builtins.Arguments

namespace LineShell.Script.Step

/-- **Resource** — what a limit is about: its name and letter, the size of a unit, and the
limit that every process starts with. -/
structure Resource where
  title : Text
  letter : Char
  unit : Nat
  limit : Limit
  deriving DecidableEq, Repr

/-- The resources, in the order in which they are shown. -/
def resources : List Resource :=
  let free : Limit := ⟨none, none⟩
  let fixed (n : Nat) : Limit := ⟨some n, some n⟩
  [⟨"time(seconds)", 't', 1, free⟩, ⟨"file(blocks)", 'f', 512, free⟩,
   ⟨"data(kbytes)", 'd', 1024, free⟩, ⟨"stack(kbytes)", 's', 1024, ⟨some 0x800000, none⟩⟩,
   ⟨"coredump(blocks)", 'c', 512, ⟨some 0, none⟩⟩, ⟨"memory(kbytes)", 'm', 1024, free⟩,
   ⟨"locked memory(kbytes)", 'l', 1024, fixed 0x800000⟩,
   ⟨"process", 'p', 1, fixed 128597⟩, ⟨"nofiles", 'n', 1, fixed 20000⟩,
   ⟨"vmemory(kbytes)", 'v', 1024, free⟩, ⟨"locks", 'w', 1, free⟩,
   ⟨"rtprio", 'r', 1, fixed 0⟩]

/-- The limit of a resource. -/
def limitOf (r : Resource) : Step Limit :=
  return ((← ask (·.limits)).lookup r.letter).getD r.limit

/-- A value of a limit as it is shown. -/
def limitText (r : Resource) : Option Nat → Text
  | none => "unlimited"
  | some value => Text.ofInt (value / r.unit)

/-- The value that a text denotes. -/
def limitValue (r : Resource) (text : Text) : Step (Option Nat) := do
  if text = "unlimited" then return none
  else if text.all Char.isDigit then return some (numberIn 10 text * r.unit)
  else fail "bad number"

/-- One value is above another one. -/
def exceeds : Option Nat → Option Nat → Bool
  | _, none => false
  | none, some _ => true
  | some a, some b => b < a

/-- A limit is set. -/
def setLimit (r : Resource) (new : Limit) : Step Unit := do
  let old ← limitOf r
  if exceeds new.soft new.hard then fail "error setting limit (Invalid argument)"
  if exceeds new.hard old.hard then fail "error setting limit (Operation not permitted)"
  change fun p =>
    { p with limits := (r.letter, new) :: p.limits.filter (·.1 ≠ r.letter) }

/-- The name of a resource in a table. -/
def resourceColumn (r : Resource) : Text :=
  r.title ++ List.replicate (20 - r.title.length) ' ' ++ [' ']

/-- Shows or sets limits. -/
def ulimit : Builtin := fun arguments => do
  let (given, values) ← options "HSatfdscmlpnvwr" arguments
  let letters := given.map (·.1)
  let kind := (letters.filter fun c => c = 'H' || c = 'S').getLast?
  let all := 'a' ∈ letters
  let letter := (letters.filter (· ∉ ("HSa" : Text))).getLastD 'f'
  let shown (limit : Limit) : Option Nat := if kind = some 'H' then limit.hard else limit.soft
  match resources.find? (·.letter = letter), values with
  | none, _ => return 0
  | some r, [] =>
    if all then
      putLines (← resources.mapM fun r => do
        return resourceColumn r ++ limitText r (shown (← limitOf r)))
    else putLines [limitText r (shown (← limitOf r))]
  | some r, value :: more =>
    if all ∨ more ≠ [] then fail "too many arguments"
    let value ← limitValue r value
    let old ← limitOf r
    setLimit r
      { soft := if kind = some 'H' then old.soft else value
        hard := if kind = some 'S' then old.hard else value }
    return 0

end LineShell.Script.Step
