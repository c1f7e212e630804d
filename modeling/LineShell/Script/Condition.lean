/-
# LineShell.Script.Condition -- conditions on texts, numbers and files

A condition is a list of words: operators with their operands, `!` in front, `-a` and
`-o` between, and parentheses around. What a word is depends on its neighbours: a word
that looks like an operator is an operand where the operator would lack its own. Lists of
up to four words have rules of their own, which go before.

What holds of files is handed in as a `FileTests`.
-/

import LineShell.Script.Bytes

namespace LineShell.Script

/-- **File tests** — what holds of the file that a path names, by the letter of the test,
and of the files that two paths name. -/
structure FileTests where
  one : Char → Text → Bool
  two : Text → Text → Text → Bool

namespace Condition

/-- **Operator** — a word with a meaning. -/
inductive Operator
  | unary (letter : Char)
  | binary (text : Text)
  | not
  | and
  | or
  | opening
  | closing
  deriving DecidableEq, Repr

/-- The operators on two operands. -/
def binaryOperators : List Text :=
  ["=", "!=", "<", ">", "-eq", "-ne", "-ge", "-gt", "-le", "-lt", "-nt", "-ot", "-ef"]

/-- The letters of the operators on one operand. -/
def unaryLetters : Text := "rwxefdcbpugkstznhOGLS"

/-- The operator that a word may be. -/
def operator? (word : Text) : Option Operator :=
  if word ∈ binaryOperators then some (.binary word)
  else if word = "!" then some .not
  else if word = "-a" then some .and
  else if word = "-o" then some .or
  else if word = "(" then some .opening
  else if word = ")" then some .closing
  else match word with
    | ['-', c] => if c ∈ unaryLetters then some (.unary c) else none
    | _ => none

/-- **Role** — what a word is among its neighbours. -/
inductive Role
  | finish
  | operand
  | operator (operator : Operator)
  deriving DecidableEq, Repr

def isBinary (word : Text) : Bool := word ∈ binaryOperators

/-- The role of the first of the words. -/
def role : List Text → Role
  | [] => .finish
  | word :: rest =>
    match operator? word with
    | none => .operand
    | some (.unary c) =>
      match rest with
      | [] => .operand
      | [_] => .operator (.unary c)
      | next :: _ => if isBinary next then .operand else .operator (.unary c)
    | some .opening => if rest = [] then .operand else .operator .opening
    | some operator => .operator operator

/-- **Verdict** — whether a condition holds, and the words from its last one on; or why
it is none. -/
abbrev Verdict := Except Text (Bool × List Text)

/-- What is said about a word, or without one if it is empty. -/
def complaint (word message : Text) : Text :=
  if word = [] then message else word ++ ": " ++ message

/-- The integer that a word denotes. -/
def integer (word : Text) : Except Text Int :=
  match integer? 10 word with
  | some n => .ok n
  | none => .error ("Illegal number: " ++ word)

/-- Bytes in order. -/
def precedes : Text → Text → Bool
  | _, [] => false
  | [], _ :: _ => true
  | a :: as, b :: bs => a < b || (a = b && precedes as bs)

/-- A condition on one operand. -/
def unary (files : FileTests) (letter : Char) (operand : Text) : Except Text Bool :=
  if letter = 'z' then .ok (operand = [])
  else if letter = 'n' then .ok (operand ≠ [])
  else if letter = 't' then (integer operand).map fun _ => false
  else .ok (files.one letter operand)

/-- A condition on two operands. -/
def binary (files : FileTests) (a operator b : Text) : Except Text Bool :=
  if operator = "=" then .ok (a = b)
  else if operator = "!=" then .ok (a ≠ b)
  else if operator = "<" then .ok (precedes a b)
  else if operator = ">" then .ok (precedes b a)
  else if operator = "-nt" ∨ operator = "-ot" ∨ operator = "-ef" then
    .ok (files.two operator a b)
  else do
    let x ← integer a
    let y ← integer b
    return if operator = "-eq" then x = y
      else if operator = "-ne" then x ≠ y
      else if operator = "-ge" then y ≤ x
      else if operator = "-gt" then y < x
      else if operator = "-le" then x ≤ y
      else x < y

/-- A condition without `!`, `-a` and `-o` outside parentheses; `whole` reads the one
between parentheses. -/
def primary (files : FileTests) (whole : Role → List Text → Verdict) (first : Role)
    (words : List Text) : Verdict :=
  match first, words with
  | .finish, _ => .ok (false, words)
  | .operator .opening, _ :: inside => do
    let next := role inside
    if next = .operator .closing then return (false, inside)
    let (holds, words) ← whole next inside
    if role words.tail = .operator .closing then return (holds, words.tail)
    else .error "closing paren expected"
  | .operator (.unary letter), word :: rest =>
    match rest with
    | [] => .error (word ++ ": argument expected")
    | operand :: _ => (unary files letter operand).map (·, rest)
  | _, word :: rest =>
    match role rest, rest with
    | .operator (.binary operator), _ :: behind =>
      match behind with
      | [] => .error (operator ++ ": argument expected")
      | other :: _ => (binary files word operator other).map (·, behind)
    | _, _ => .ok (word ≠ [], words)
  | _, [] => .ok (false, words)

/-- A condition with `!` in front any number of times. -/
def negation (files : FileTests) (whole : Role → List Text → Verdict) :
    Nat → Role → List Text → Verdict
  | 0, _, words => .ok (false, words)
  | fuel + 1, first, words =>
    if first = .operator .not then
      let next := role words.tail
      (negation files whole fuel next (if next = .finish then words else words.tail)).map
        fun (holds, words) => (! holds, words)
    else primary files whole first words

/-- Conditions joined by `-a`, all of which are worked out. -/
def conjunction (files : FileTests) (whole : Role → List Text → Verdict) :
    Nat → Role → List Text → Verdict
  | 0, _, words => .ok (false, words)
  | fuel + 1, first, words => do
    let (holds, words) ← negation files whole (words.length + 2) first words
    if role words.tail = .operator .and then
      let words := words.tail.tail
      let (more, words) ← conjunction files whole fuel (role words) words
      return (holds && more, words)
    else return (holds, words)

/-- Conditions joined by `-o`, all of which are worked out. -/
def disjunction (files : FileTests) (whole : Role → List Text → Verdict) :
    Nat → Role → List Text → Verdict
  | 0, _, words => .ok (false, words)
  | fuel + 1, first, words => do
    let (holds, words) ← conjunction files whole (words.length + 2) first words
    if role words.tail = .operator .or then
      let words := words.tail.tail
      let (more, words) ← disjunction files whole fuel (role words) words
      return (holds || more, words)
    else return (holds, words)

/-- A whole condition, `depth` parentheses deep at most. -/
def wholeAt (files : FileTests) : Nat → Role → List Text → Verdict
  | 0, _, words => .ok (false, words)
  | depth + 1, first, words =>
    disjunction files (wholeAt files depth) (words.length + 2) first words

/-- Words that are read as a whole condition. -/
def ofWords (files : FileTests) (first : Role) (words : List Text) : Except Text Bool := do
  let (holds, rest) ← wholeAt files (words.length + 1) first words
  match rest with
  | word :: _ :: _ => .error (complaint word "unexpected operator")
  | _ => return holds

/-- Whether a condition holds, or why it is none; `!` in front of two or three words is
taken off first and counts once. -/
def holdsWithin (files : FileTests) : Nat → Bool → List Text → Except Text Bool
  | 0, _, _ => .ok false
  | fuel + 1, negated, words =>
    let verdict (first : Role) (words : List Text) : Except Text Bool :=
      (ofWords files first words).map (· != negated)
    let special : Except Text Bool :=
      let inside := words.tail.dropLast
      if words.head? = some ['('] ∧ words.getLast? = some [')'] then verdict (role inside) inside
      else if words.head? = some ['!'] then holdsWithin files fuel true words.tail
      else verdict (role words) words
    match words with
    | [] => .ok negated
    | [_, operator, _] => if isBinary operator then verdict .operand words else special
    | [_, _, _, _] => special
    | _ => verdict (role words) words

/-- **Whether a condition holds,** or why it is none. -/
def holds (files : FileTests) (words : List Text) : Except Text Bool :=
  holdsWithin files (words.length + 1) false words

end Condition
end LineShell.Script
