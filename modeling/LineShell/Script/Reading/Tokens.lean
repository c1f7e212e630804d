/-
# LineShell.Script.Reading.Tokens -- reading the tokens of a script

A token is a word, a redirect operator with the descriptor in front of it, another
operator, a line feed, or the end of the script. Where a command may begin, plain words
are told from reserved ones, and a word that stands for other text is replaced by it.

After a line feed the documents that are awaited are read: the lines up to the one that
is their delimiter. A document whose delimiter was not quoted is made of parts.
-/

import LineShell.Script.Reading.Words

namespace LineShell.Script.Reader

/-! ## Documents -/

/-- The lines of a document without parts, up to its end. -/
def documentLines (a : Awaited) : Nat → Reader Text
  | 0 => return []
  | fuel + 1 => do
    let s ← get
    let text := if a.unindented then s.rest.dropWhile (· = '\t') else s.rest
    let line := text.takeWhile (· ≠ '\n')
    let behind := text.drop line.length
    set { s with
      rest := behind.drop 1
      line := s.line + (behind.take 1).length
      meetsEnd := s.meetsEnd || behind.isEmpty }
    if line = a.delimiter ∨ text = [] then return []
    else return line ++ behind.take 1 ++ (← documentLines a fuel)

/-- Reads one document. -/
def document (nested : Nested) (a : Awaited) : Reader Unit := do
  let word ←
    if a.plain then
      pure [Part.literal (← documentLines a ((← get).rest.length + 1)) true]
    else match ← lineStart? a with
      | none => pure []
      | some start => pure (start ++ (← nested.parts ⟨.document, false, false, a⟩))
  modify fun s => { s with documents := (a.index, word) :: s.documents }

/-- Reads the documents that are awaited. -/
def awaitedDocuments (nested : Nested) : Reader Unit := do
  let awaited := (← get).awaited
  modify ({ · with awaited := [] })
  awaited.forM (document nested)

/-! ## Tokens -/

/-- The operator of a redirect that begins with the given character. -/
def redirectOperator (c : Char) : Reader Text := do
  skip
  match c, ← peek? with
  | '>', some '>' => skip; return ">>"
  | '>', some '|' => skip; return ">|"
  | '>', some '&' => skip; return ">&"
  | '<', some '&' => skip; return "<&"
  | '<', some '>' => skip; return "<>"
  | '<', some '<' =>
    skip
    if ← skipIf '-' then return "<<-" else return "<<"
  | _, _ => return [c]

/-- An operator that may stand twice. -/
def doubled (c : Char) : Reader Token := do
  skip
  if ← skipIf c then return .operator [c, c] else return .operator [c]

/-- Blanks and a comment are passed over. -/
def skipBlanks : Reader Unit := do
  let _ ← takeWhile fun c => c = ' ' || c = '\t'
  if (← peek?) = some '#' then
    modify fun s => { s with rest := s.rest.dropWhile (· ≠ '\n') }
    let _ ← peekPlain?

/-- A word, or the redirect operator behind a descriptor. -/
def wordToken (nested : Nested) (plain : Bool) : Reader Token := do
  let word ← nested.parts ⟨.bare, false, plain, none⟩
  match plainText? word, ← peek? with
  | some [digit], some c =>
    if digit.isDigit ∧ (c = '<' ∨ c = '>') then
      return .redirect (digitValue? digit) (← redirectOperator c)
    else return .word word
  | _, _ => return .word word

/-- The next token as it stands; `plain` tells whether `$` has no meaning in it. -/
def plainToken (nested : Nested) (plain : Bool) : Reader Token := do
  match (← get).ahead with
  | some token =>
    modify ({ · with ahead := none })
    return token
  | none =>
    skipBlanks
    match ← peek? with
    | none => return .finish
    | some '\n' => skip; return .newline
    | some '&' => doubled '&'
    | some '|' => doubled '|'
    | some ';' => doubled ';'
    | some '(' => skip; return .operator "("
    | some ')' => skip; return .operator ")"
    | some c =>
      if c = '<' ∨ c = '>' then return .redirect none (← redirectOperator c)
      else wordToken nested plain

/-- The words that have a meaning where a command may begin. -/
def reservedWords : List Text :=
  ["!", "case", "do", "done", "elif", "else", "esac", "fi", "for", "if", "in", "then",
   "until", "while", ['\x7b'], ['\x7d']]

/-- **Look** — how the next token is looked at: line feeds passed over, reserved words
told from others, aliases replaced, `$` without meaning. -/
structure Look where
  newlines : Bool
  reserved : Bool
  aliases : Bool
  plain : Bool
  deriving DecidableEq, Repr

namespace Look

/-- The look at an argument. -/
def argument : Look := ⟨false, false, false, false⟩

/-- The look at the delimiter of a document. -/
def delimiter : Look := ⟨false, false, false, true⟩

/-- The look at the first word of a simple command. -/
def name : Look := ⟨false, false, true, false⟩

/-- The look where a command begins. -/
def begin : Look := ⟨false, true, true, false⟩

/-- The look where a command begins, maybe on a later line. -/
def later : Look := ⟨true, true, true, false⟩

/-- The look where a case begins or ends, maybe on a later line. -/
def ofCase : Look := ⟨true, true, false, false⟩

end Look

/-- Replaces a word if it is an alias that is not being replaced. -/
def replaceAlias (name : Text) : Reader Bool := do
  let s ← get
  match s.aliases.lookup name with
  | none => return false
  | some text =>
    if name ∈ s.closedNames then return false
    let size := s.rest.length
    let opens := text.getLast? = some ' ' || text.getLast? = some '\t'
    let first : List Replacement := if text = [] then [] else [⟨name, size, opens⟩]
    let others := s.inUse.filter fun r => r.behind ≤ size
    set { s with rest := text ++ s.rest, inUse := first ++ others }
    return true

/-- Some text of an alias that ends in a blank has been passed since this was asked for
the last time. -/
def passedOpening : Reader Bool := do
  let s ← get
  if s.inUse.isEmpty then return false
  let size := s.rest.length
  let passed (r : Replacement) : Bool := r.opens && size ≤ r.behind
  let note (r : Replacement) : Replacement := { r with opens := r.opens && ! passed r }
  set { s with inUse := s.inUse.map note }
  return s.inUse.any passed

/-- The next token; the fuel bounds how many line feeds and aliases are passed over. -/
def tokenWithin (nested : Nested) : Nat → Look → Reader Token
  | 0, _ => return .finish
  | fuel + 1, look => do
    let found ← plainToken nested look.plain
    let aliases := (← passedOpening) || look.aliases
    match found with
    | .newline =>
      if look.newlines then
        awaitedDocuments nested
        tokenWithin nested fuel look
      else return .newline
    | .word word =>
      match plainText? word with
      | some text =>
        if look.reserved ∧ text ∈ reservedWords then return .reserved text
        else if ¬ aliases then return .word word
        else if ← replaceAlias text then
          tokenWithin nested fuel { look with aliases, plain := false }
        else return .word word
      | none => return .word word
    | token => return token

/-- How many aliases may take the place of one another. -/
def replacementLimit : Nat := 10000

/-- **The next token.** -/
def token (nested : Nested) (look : Look) : Reader Token := do
  tokenWithin nested ((← get).rest.length + replacementLimit) look

/-- A token that was looked at and not used. -/
def pushBack (token : Token) : Reader Unit := modify ({ · with ahead := some token })

end LineShell.Script.Reader
