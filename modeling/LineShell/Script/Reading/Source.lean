/-
# LineShell.Script.Reading.Source -- where a script is read from

A script is read from a text, character by character, and the number of the current line
is kept. A backslash and a line feed together are no characters: they join two lines.
Besides the text a source holds what reading has to remember: a token that was looked at
and not used, the documents whose text follows after the current line, those that have
been read, and the words that stand for other text (aliases).

Reading fails with a message; the source stays where the failure was met. When the end of
the text was looked for or met, this is noted: with more text behind it reading might have
come to something else.
-/

import LineShell.Script.Command

namespace LineShell.Script

/-- **Token** — what commands are written with. -/
inductive Token
  | word (word : Word)
  | redirect (descriptor : Option Nat) (operator : Text)
  | operator (operator : Text)
  | reserved (text : Text)
  | newline
  | finish

namespace Token

/-- The token as messages call it. -/
def title : Token → Text
  | word _ => "word"
  | redirect _ _ => "redirection"
  | operator text | reserved text => '"' :: text ++ ['"']
  | newline => "newline"
  | finish => "end of file"

def isOperator (text : Text) : Token → Bool
  | operator other => other = text
  | _ => false

def isReserved (text : Text) : Token → Bool
  | reserved other => other = text
  | _ => false

/-- The token as a word, where words are not told from reserved ones. -/
def word? : Token → Option Word
  | word w => some w
  | reserved text => some [.literal text false]
  | _ => none

end Token

/-- **Awaited** — a document whose text follows after the current line. -/
structure Awaited where
  index : Nat
  delimiter : Text
  plain : Bool
  unindented : Bool
  deriving DecidableEq, Repr

/-- **Replacement** — an alias whose text took its place, how much text stands behind that,
and whether the text ends in a blank whose end has not been passed. -/
structure Replacement where
  name : Text
  behind : Nat
  opens : Bool
  deriving DecidableEq, Repr

/-- **Source** — the text still to be read and what is remembered while reading it. An
alias is not replaced again while its own text is read; those of the texts around this one
are `closed`. The end of the text may have been met. -/
structure Source where
  rest : Text
  line : Nat
  ahead : Option Token
  awaited : List Awaited
  documents : List (Nat × Word)
  count : Nat
  aliases : List (Text × Text)
  inUse : List Replacement
  closed : List Text
  meetsEnd : Bool

/-- **Reader** — reading from a source; it may fail with a message. -/
abbrev Reader (α : Type) := ExceptT Text (StateM Source) α

namespace Source

/-- A source at the beginning of a text. -/
def ofText (text : Text) (line : Nat) (count : Nat) (aliases : List (Text × Text)) : Source :=
  ⟨text, line, none, [], [], count, aliases, [], [], false⟩

/-- The source with more text behind that which is left. -/
def extend (s : Source) (more : Text) : Source :=
  { s with
    rest := s.rest ++ more
    inUse := s.inUse.map fun r => { r with behind := r.behind + more.length } }

/-- Joined lines at the front of a text: what stands behind them, and their number. -/
def joined : Text → Nat × Text
  | '\\' :: '\n' :: rest =>
    let (count, behind) := joined rest
    (count + 1, behind)
  | rest => (0, rest)

/-- The aliases that are not replaced at this place. The text of one of them has just been
left if the character in front is its last one. -/
def closedNames (s : Source) : List Text :=
  (s.inUse.filter fun r => r.behind ≤ s.rest.length).map (·.name) ++ s.closed

end Source

namespace Reader

/-- The end of the text has been met. -/
def noteEnd : Reader Unit := modify ({ · with meetsEnd := true })

/-- The next character as it stands. -/
def peekPlain? : Reader (Option Char) := do
  match (← get).rest with
  | c :: _ => return some c
  | [] =>
    noteEnd
    return none

/-- The next character, lines joined. -/
def peek? : Reader (Option Char) := do
  let s ← get
  match s.rest with
  | '\\' :: '\n' :: _ =>
    let (count, rest) := Source.joined s.rest
    set { s with rest, line := s.line + count }
    if rest = ['\\'] then noteEnd
    peekPlain?
  | ['\\'] =>
    noteEnd
    return some '\\'
  | c :: _ => return some c
  | [] => peekPlain?

/-- One character is passed over. -/
def skip : Reader Unit :=
  modify fun s =>
    match s.rest with
    | c :: rest => { s with rest, line := if c = '\n' then s.line + 1 else s.line }
    | [] => s

/-- The next character is passed over if it is the given one. -/
def skipIf (c : Char) : Reader Bool := do
  if (← peek?) = some c then
    skip
    return true
  else return false

/-- The characters at the front of which a condition holds, lines joined; at most as many
as the fuel tells. -/
def takeWhileWithin (holds : Char → Bool) : Nat → Reader Text
  | 0 => return []
  | fuel + 1 => do
    match ← peek? with
    | some c =>
      if holds c then
        skip
        return c :: (← takeWhileWithin holds fuel)
      else return []
    | none => return []

/-- The characters at the front of which a condition holds. -/
def takeWhile (holds : Char → Bool) : Reader Text := do
  takeWhileWithin holds ((← get).rest.length + 1)

/-- The characters in front of the given one, as they stand, and that one is passed over;
nothing if it does not occur. -/
def takeUntil? (stop : Char) : Reader (Option Text) := do
  let s ← get
  let taken := s.rest.takeWhile (· ≠ stop)
  match s.rest.drop taken.length with
  | [] =>
    set { s with rest := [], line := s.line + taken.count '\n', meetsEnd := true }
    return none
  | _ :: rest =>
    set { s with rest, line := s.line + taken.count '\n' + if stop = '\n' then 1 else 0 }
    return some taken

/-- Reading fails. -/
def fail {α : Type} (message : Text) : Reader α := throw message

/-- A token is out of place; another one may have been wanted. -/
def unexpected {α : Type} (token : Token) (wanted : Option Token) : Reader α :=
  fail (token.title ++ " unexpected" ++ match wanted with
    | none => []
    | some wanted => " (expecting " ++ wanted.title ++ ")")

/-- Reads from another text, and comes back; no token that was looked at there is left. -/
def within {α : Type} (text : Text) (line : Nat) (reader : Reader α) : Reader α := do
  let s ← get
  set { s with
    rest := text, line, awaited := [], inUse := [], closed := s.closedNames }
  let result ← reader
  modify fun other =>
    { s with ahead := none, documents := other.documents, count := other.count }
  return result

end Reader
end LineShell.Script
