/-
# LineShell.Script.Shape -- shapes of texts

A shape is made of runs. Every run is a row of bytes, each of which is out of a set; any
text may stand between a run and the next one. A text that has the shape begins with the
first run and ends with the last one, and the others stand between them in their order.

To find the runs it is enough to take each of them as early as it comes: what follows then
has the longest rest of the text for itself. Only the last run makes a difference: taken as
early as possible, it ends the shortest beginning of the text that has the shape, and taken
as late as possible the longest one.
-/

import LineShell.Script.Bytes

namespace LineShell.Script

/-! ## Sets of bytes -/

/-- **Member** — what a set holds: the bytes from one to another, or the bytes of a
class. -/
inductive Member
  | range (low high : Char)
  | ofClass (name : Text)
  deriving DecidableEq, Repr

namespace Member

/-- The classes, by name. -/
def classes : List (Text × (Char → Bool)) :=
  [("alnum", Char.isAlphanum), ("alpha", Char.isAlpha), ("blank", fun c => c = ' ' || c = '\t'),
   ("cntrl", fun c => c < ' ' || c = '\x7f'), ("digit", Char.isDigit),
   ("graph", fun c => '!' ≤ c && c ≤ '~'), ("lower", Char.isLower),
   ("print", fun c => ' ' ≤ c && c ≤ '~'),
   ("punct", fun c => '!' ≤ c && c ≤ '~' && ! c.isAlphanum), ("space", isSpace),
   ("upper", Char.isUpper), ("xdigit", isDigitOf 16)]

/-- The bytes of a class. -/
def classHolds (name : Text) (c : Char) : Bool :=
  match classes.lookup name with
  | some holds => holds c
  | none => false

/-- Where a byte stands in ranges: bytes from 128 on come before all others. -/
def rank (c : Char) : Nat := (c.toNat + 128) % 256

def holds (c : Char) : Member → Bool
  | .range low high => rank low ≤ rank c && rank c ≤ rank high
  | .ofClass name => classHolds name c

end Member

/-- **Byte set** — one byte, the bytes that are members, or all others. -/
inductive ByteSet
  | only (c : Char)
  | among (members : List Member)
  | outside (members : List Member)
  deriving DecidableEq, Repr

namespace ByteSet

def holds (c : Char) : ByteSet → Bool
  | .only d => c = d
  | .among members => members.any (·.holds c)
  | .outside members => ! members.any (·.holds c)

/-- The set of all bytes. -/
def all : ByteSet := .outside []

end ByteSet

/-! ## Runs -/

/-- **Run** — a row of bytes, each out of a set. -/
abbrev Run := List ByteSet

namespace Run

/-- What stands behind the run at the beginning of a text. -/
def behind? : Run → Text → Option Text
  | [], text => some text
  | _ :: _, [] => none
  | set :: run, c :: text => if set.holds c then behind? run text else none

/-- What stands behind the run where it comes first in a text. -/
def behindFirst? (run : Run) : Text → Option Text
  | [] => run.behind? []
  | c :: text =>
    match run.behind? (c :: text) with
    | some rest => some rest
    | none => behindFirst? run text

/-- What stands behind the run where it comes last in a text. -/
def behindLast? (run : Run) : Text → Option Text
  | [] => run.behind? []
  | c :: text =>
    match behindLast? run text with
    | some rest => some rest
    | none => run.behind? (c :: text)

end Run

/-! ## Shapes -/

/-- **Shape** — the run at the beginning, and those that follow, each behind any text. -/
structure Shape where
  front : Run
  later : List Run
  deriving DecidableEq, Repr

namespace Shape

/-- The shape of the empty text. -/
def empty : Shape := ⟨[], []⟩

/-- One more byte stands in front. -/
def afterByte (set : ByteSet) (s : Shape) : Shape := { s with front := set :: s.front }

/-- Any text stands in front. -/
def afterText (s : Shape) : Shape := ⟨[], s.front :: s.later⟩

/-- The shape of the texts read backwards. -/
def reverse (s : Shape) : Shape :=
  match ((s.front :: s.later).map List.reverse).reverse with
  | [] => empty
  | front :: later => ⟨front, later⟩

/-- What is left of a text when the runs have been found in it, one behind the other; the
last one of them comes as early as possible, or as late as possible. -/
def follow? (longest : Bool) : List Run → Text → Option Text
  | [], text => some text
  | [run], text => if longest then run.behindLast? text else run.behindFirst? text
  | run :: later, text =>
    match run.behindFirst? text with
    | some rest => follow? longest later rest
    | none => none

/-- What stands behind the shortest or the longest beginning of a text that has the
shape. -/
def behind? (s : Shape) (longest : Bool) (text : Text) : Option Text :=
  match s.front.behind? text with
  | some rest => follow? longest s.later rest
  | none => none

/-- The text has the shape. -/
def fits (s : Shape) (text : Text) : Bool := s.behind? true text = some []

/-- **Trimming at the beginning** — the text without the shortest or the longest beginning
that has the shape. No more is looked at than what stands in front of a NUL. -/
def trimFront (s : Shape) (longest : Bool) (text : Text) : Text :=
  let seen := text.takeWhile (· ≠ '\x00')
  match s.behind? longest seen with
  | none => text
  | some rest => if longest && rest.isEmpty then [] else rest ++ text.drop seen.length

/-- **Trimming at the end** — the text without the shortest or the longest end of which what
stands in front of its first NUL has the shape. -/
def trimEnd (s : Shape) (longest : Bool) (text : Text) : Text :=
  let backwards := s.reverse
  let parts := (text.splitOn '\x00').zipIdx
  let kept (part : Text × Nat) : Option Text :=
    (backwards.behind? longest part.1.reverse).map fun rest =>
      ['\x00'].intercalate ((parts.take part.2).map (·.1) ++ [rest.reverse])
  ((if longest then parts else parts.reverse).findSome? kept).getD text

end Shape
end LineShell.Script
