/-
# LineShell.Script.Command -- the commands of a script

Programs are scripts in a small command language. A script is a sequence of commands.
A simple command gives values to variables, names what is to be called with which
arguments, and redirects files. Compound commands are made of others.

A command is written with words. A word is made of parts: literal text, quoted or not;
a quotation; and what stands for a text that is known when the script runs, the value of
a parameter, the output of commands, or the value of a sum. Commands, words and redirects
contain one another, so the three types are defined together.
-/

import LineShell.Script.Bytes

namespace LineShell.Script

/-- **Operation** — what the braces around a parameter ask for. With `emptyToo` an empty
value counts as none. -/
inductive Operation
  | value (emptyToo : Bool)
  | length
  | fallback (emptyToo : Bool)
  | alternative (emptyToo : Bool)
  | assignment (emptyToo : Bool)
  | demand (emptyToo : Bool)
  | trim (atEnd longest : Bool)
  | invalid
  deriving DecidableEq, Repr

/-- **Access** — how a redirect opens its file. -/
inductive Access
  | read
  | write
  | force
  | append
  | readWrite
  deriving DecidableEq, Repr

mutual

/-- **Part** — a piece of a word; what stands behind a `stop` is read and has no meaning. -/
inductive Part
  | literal (text : Text) (quoted : Bool)
  | quotation (parts : List Part)
  | parameter (name : Text) (operation : Operation) (operand : List Part)
  | substitution (commands : Option Command)
  | arithmetic (expression : List Part)
  | stop

/-- **Redirect** — what a descriptor is to stand for: a file, what another descriptor
stands for (or none), a descriptor that a word names, or a document of the script. -/
inductive Redirect
  | file (descriptor : Nat) (access : Access) (target : List Part)
  | copy (descriptor : Nat) (source : Option Nat)
  | named (descriptor : Nat) (source : List Part)
  | document (descriptor : Nat) (index : Nat)

/-- **Command** — a command of a script, with the number of its line where that shows. -/
inductive Command
  | simple (line : Nat) (assignments : List (Text × List Part)) (words : List (List Part))
      (redirects : List Redirect)
  | pipeline (commands : List Command)
  | negation (command : Command)
  | both (first second : Command)
  | either (first second : Command)
  | sequence (first second : Command)
  | background (command : Command)
  | subshell (line : Nat) (body : Option Command) (redirects : List Redirect)
  | redirected (line : Nat) (body : Option Command) (redirects : List Redirect)
  | group (body : Option Command)
  | branch (condition yes no : Option Command)
  | loop (whileFails : Bool) (condition body : Option Command)
  | forEach (line : Nat) (name : Text) (items : List (List Part)) (body : Option Command)
  | choice (line : Nat) (subject : List Part)
      (cases : List (List (List Part) × Option Command))
  | function (name : Text) (body : Command)

end

/-- **Word** — what one argument of a command is written as. -/
abbrev Word := List Part

instance : Inhabited Command := ⟨.group none⟩

/-- The text of a word that is written plainly. -/
def plainText? : Word → Option Text
  | [.literal text false] => some text
  | _ => none

/-- Neighbouring literals of the same kind as one. -/
def gather : Word → Word
  | .literal a quoted :: rest =>
    match gather rest with
    | .literal b other :: more =>
      if quoted = other then .literal (a ++ b) quoted :: more
      else .literal a quoted :: .literal b other :: more
    | more => .literal a quoted :: more
  | part :: rest => part :: gather rest
  | [] => []

/-- The parts of a word in front of a stop and those behind it, if there is one. -/
def stopped : Word → Word × Option Word
  | [] => ([], none)
  | .stop :: rest => ([], some rest)
  | part :: rest => (part :: (stopped rest).1, (stopped rest).2)

/-- A part that holds a word and ends with it. A stop inside ends it early, and what stands
behind the stop stands behind the part, where another stop comes in the place of the end. -/
def closing (part : Word → Part) (word : Word) : Word :=
  match stopped word with
  | (word, none) => [part word]
  | (front, some behind) => part front :: behind ++ [.stop]

/-- A quotation, which a stop inside does not end: what stands behind the stop is quoted
as well. -/
def quotations (word : Word) : Word :=
  match stopped word with
  | (word, none) => [.quotation word]
  | (front, some behind) => [.quotation front, .stop, .quotation behind]

/-- The variable that a word gives a value to, and that value. -/
def assignment? : Word → Option (Text × Word)
  | .literal text false :: value =>
    let name := text.takeWhile isNameChar
    match text.dropWhile isNameChar with
    | '=' :: written =>
      if isName name then
        some (name, (if written = [] then [] else [.literal written false]) ++ value)
      else none
    | _ => none
  | _ => none

/-- The command that a group without redirects holds. -/
def Command.bare : Command → Command
  | .group (some body) => body.bare
  | command => command

/-- Commands one after the other. -/
def Command.after (first : Option Command) (second : Command) : Command :=
  match first with
  | none => second
  | some first => .sequence first second

end LineShell.Script
