/-
# LineShell.Script.Field -- the fields of an expanded word

A word expands to marks: letters, and signs between them. Letters that come from an
unquoted expansion may separate fields, if they are among the separators of the script.
Blanks among the separators count once however many there are, and not at all in front;
every other separator ends a field, together with the blanks around it. In the first
expansion behind quoted arguments every separator, blank or not, ends a field of its own.
-/

import LineShell.Script.Pattern

namespace LineShell.Script

/-- **Mark** — a piece of an expanded word: a text, whose letters are quoted or not and may
separate fields or not; the sign that a field is there even if it is empty; the beginning
of an expansion, and that of quoted arguments; a gap, which separates like a blank; and a
cut, which always separates. -/
inductive Mark
  | text (text : Text) (quoted separates : Bool)
  | present
  | edge
  | arguments
  | gap
  | cut
  deriving DecidableEq, Repr

/-- **Field** — one argument, before patterns in it are looked up. -/
abbrev Field := Pattern

namespace Mark

/-- The mark may separate fields by its letters. -/
def separates : Mark → Bool
  | .text t _ separates => separates && ! t.isEmpty
  | _ => false

/-- Marks behind the sign that an expansion begins, if one of them may separate fields. -/
def bordered (marks : List Mark) : List Mark :=
  if marks.any separates then .edge :: marks else marks

/-- The letters among marks, in order; a gap or cut counts as a space. -/
def letters (marks : List Mark) : Field :=
  marks.flatMap fun
    | .text t quoted _ => t.map (⟨·, quoted⟩)
    | .gap | .cut => [⟨' ', true⟩]
    | _ => []

/-- The text of marks. -/
def toText (marks : List Mark) : Text :=
  marks.flatMap fun
    | .text t _ _ => t
    | .gap | .cut => [' ']
    | _ => []

end Mark

namespace Field

/-- A blank among separators. -/
def isBlank (c : Char) : Bool := c = ' ' || c = '\t' || c = '\n'

/-- **Region** — where in a word an expansion is: among quoted arguments, right behind
them, or elsewhere. -/
inductive Region
  | plain
  | arguments
  | behindArguments
  deriving DecidableEq, Repr

/-- The region of the expansion that begins behind another one. -/
def Region.next : Region → Region
  | .arguments => .behindArguments
  | _ => .plain

/-- **Cutting** — the state of cutting marks into fields: the fields so far, last one first;
the letters of the field begun, last one first; whether it counts even if it is empty;
behind a separator, whether one more that is no blank still belongs to it; and the
region. -/
structure Cutting where
  fields : List Field
  letters : List Letter
  begun : Bool
  behind : Option Bool
  region : Region
  deriving DecidableEq, Repr

namespace Cutting

def start : Cutting := ⟨[], [], false, none, .plain⟩

/-- The field begun ends. -/
def close (s : Cutting) : Cutting :=
  { s with fields := s.letters.reverse :: s.fields, letters := [] }

/-- The state behind a separator. -/
def separate (s : Cutting) (blank : Bool) : Cutting :=
  let ended : Cutting := { s.close with begun := false, behind := some blank }
  if s.region = .behindArguments then ended
  else match s.behind with
  | some mayTake =>
    if blank then s
    else if mayTake then { s with behind := some false }
    else ended
  | none => if blank ∧ ¬ s.begun then s else ended

/-- The state behind a text that separates nothing. -/
def take (quoted : Bool) (s : Cutting) (text : Text) : Cutting :=
  if text.isEmpty then s
  else
    { s with
      letters := text.foldl (fun letters c => ⟨c, quoted⟩ :: letters) s.letters
      begun := true
      behind := none }

/-- The state behind a mark. -/
def step (separators : Text) (s : Cutting) : Mark → Cutting
  | .text text quoted true =>
    text.foldl (fun s c =>
      if c ∈ separators then s.separate (isBlank c) else s.take quoted [c]) s
  | .text text quoted false => s.take quoted text
  | .present => { s with begun := true, behind := none }
  | .edge => { s with behind := none, region := s.region.next }
  | .arguments => { s with behind := none, region := .arguments }
  | .gap => s.separate true
  | .cut => { s.close with begun := true, behind := none }

/-- All fields, in order. -/
def finish (s : Cutting) : List Field :=
  (if s.begun ∨ s.region = .arguments then s.close else s).fields.reverse

end Cutting

/-- **The fields** that marks make up. -/
def ofMarks (separators : Text) (marks : List Mark) : List Field :=
  (marks.foldl (Cutting.step separators) Cutting.start).finish

end Field
end LineShell.Script
