/-
# LineShell.Script.Pattern -- patterns

A pattern is a list of letters, each quoted or not. Unquoted, `*` stands for any text,
`?` for any byte, and brackets for one byte out of a set, or out of all others where `!`
stands first in them; a backslash quotes the letter behind it. Every other letter stands
for itself.
-/

import LineShell.Script.Shape

namespace LineShell.Script

/-- **Letter** — a byte of a word that was expanded, and whether it is quoted. -/
structure Letter where
  char : Char
  quoted : Bool
  deriving DecidableEq, Repr

/-- **Pattern** — what texts are compared with. -/
abbrev Pattern := List Letter

namespace Pattern

/-- The letter has the given meaning, which quoting takes away. -/
def means (letter : Letter) (c : Char) : Bool := letter.char = c && ! letter.quoted

/-- The pattern without unquoted backslashes: each of them quotes the letter behind it,
and stands for itself at the end. -/
def unescaped : Pattern → Pattern
  | [] => []
  | letter :: rest =>
    if means letter '\\' then
      match rest with
      | next :: rest => ⟨next.char, true⟩ :: unescaped rest
      | [] => [⟨'\\', true⟩]
    else letter :: unescaped rest

/-! ## Brackets -/

/-- The class at the front of a pattern, behind its opening bracket; other names than those
of classes are no more than letters. -/
def classAt? (pattern : Pattern) : Option (Text × Pattern) :=
  match pattern with
  | colon :: rest =>
    if means colon ':' then
      let name := (rest.takeWhile fun letter => letter.char.isAlpha).map (·.char)
      match rest.drop name.length with
      | colon :: closing :: behind =>
        if means colon ':' ∧ means closing ']' ∧ (Member.classes.lookup name).isSome then
          some (name, behind)
        else none
      | _ => none
    else none
  | [] => none

/-- The members of a set up to the closing bracket, and what stands behind it. The first
letter is a member even if it is a closing bracket. -/
def membersWithin : Nat → Bool → Pattern → Option (List Member × Pattern)
  | 0, _, _ => none
  | _ + 1, _, [] => none
  | fuel + 1, first, letter :: rest =>
    if means letter ']' ∧ ¬ first then some ([], rest)
    else
      let also (member : Member) (rest : Pattern) : Option (List Member × Pattern) :=
        (membersWithin fuel false rest).map fun (members, behind) => (member :: members, behind)
      match if means letter '[' then classAt? rest else none with
      | some (name, behind) => also (.ofClass name) behind
      | none =>
        match rest with
        | sign :: high :: behind =>
          if means sign '-' ∧ ¬ means high ']' then also (.range letter.char high.char) behind
          else also (.range letter.char letter.char) rest
        | _ => also (.range letter.char letter.char) rest

/-- The set whose opening bracket stands in front of the pattern. -/
def set? (pattern : Pattern) : Option (ByteSet × Pattern) :=
  let within (inside : Pattern) : Option (List Member × Pattern) :=
    membersWithin (inside.length + 1) true inside
  match pattern with
  | [] => none
  | letter :: rest =>
    if means letter '!' then (within rest).map fun (members, behind) => (.outside members, behind)
    else (within pattern).map fun (members, behind) => (.among members, behind)

/-! ## Matching -/

/-- The shape that a pattern without backslashes stands for; the fuel is more than its
length. -/
def shapeWithin : Nat → Pattern → Shape
  | 0, _ => Shape.empty
  | _ + 1, [] => Shape.empty
  | fuel + 1, letter :: rest =>
    if means letter '*' then (shapeWithin fuel rest).afterText
    else if means letter '?' then (shapeWithin fuel rest).afterByte .all
    else match if means letter '[' then set? rest else none with
      | some (set, behind) => (shapeWithin fuel behind).afterByte set
      | none => (shapeWithin fuel rest).afterByte (.only letter.char)

/-- **The shape** that a pattern stands for. -/
def shape (pattern : Pattern) : Shape :=
  shapeWithin (pattern.length + 1) pattern.unescaped

/-- **Matching** — the pattern stands for the text. -/
def fits (pattern : Pattern) (text : Text) : Bool := pattern.shape.fits text

/-- Behind an opening bracket and `!`, a closing bracket follows before the name of a path
ends, though not at once. -/
def closes (inside : Pattern) : Bool :=
  let members := match inside with
    | letter :: rest => if means letter '!' then rest else inside
    | [] => []
  match members with
  | first :: rest =>
    first.char ≠ '/' &&
      match rest.dropWhile fun letter => letter.char ≠ '/' && ! means letter ']' with
      | letter :: _ => means letter ']'
      | [] => false
  | [] => false

/-- Some letter has a meaning beyond itself. -/
def isOpen : Pattern → Bool
  | [] => false
  | letter :: rest =>
    means letter '*' || means letter '?' || (means letter '[' && closes rest) || isOpen rest

/-- **Trimming** — the text without a part at its beginning or end that the pattern stands
for, the shortest one or the longest. -/
def trim (pattern : Pattern) (atEnd longest : Bool) (text : Text) : Text :=
  if atEnd then pattern.shape.trimEnd longest text else pattern.shape.trimFront longest text

/-- The letters as plain text. -/
def toText (pattern : Pattern) : Text := pattern.map (·.char)

end Pattern
end LineShell.Script
