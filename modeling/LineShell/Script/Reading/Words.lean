/-
# LineShell.Script.Reading.Words -- reading the words of a script

A word is read part by part. What a character means depends on where it stands: bare, in
double quotation marks, in a document, or in a sum; and on whether it stands between the
braces of a parameter, which a closing brace ends. Between bare parts blanks and the
characters of operators end a word.

Words hold commands (`$( )`), and commands hold words. How the commands are read is
handed in as a `Nested`, which also reads the parts of words one level further down.
-/

import LineShell.Script.Reading.Source

namespace LineShell.Script

/-- **Surround** — where a part stands. -/
inductive Surround
  | bare
  | quotes
  | document
  | sum
  deriving DecidableEq, Repr

/-- **Setting** — where a part stands, whether braces are around it, whether `$` has no
meaning there, and the document that it is part of. -/
structure Setting where
  surround : Surround
  braces : Bool
  plain : Bool
  document : Option Awaited
  deriving DecidableEq, Repr

/-- **Nested** — what one level of reading asks of the next one. -/
structure Nested where
  commands : Reader (Option Command)
  token : Reader Token
  parts : Setting → Reader Word

namespace Reader

/-- The characters that end a bare word. -/
def endsWord (c : Char) : Bool :=
  c = ' ' || c = '\t' || c = '\n' || c = ';' || c = '&' || c = '|' || c = '<' || c = '>'
    || c = '(' || c = ')'

def isSpecial (c : Char) : Bool :=
  c = '!' || c = '#' || c = '$' || c = '*' || c = '-' || c = '?' || c = '@'

/-! ## Parameters -/

/-- The operation that an operator names, where it stands without or behind a colon. -/
def operationOf? (c : Char) (emptyToo : Bool) : Option Operation :=
  if c = '\x7d' then some (.value emptyToo)
  else if c = '-' then some (.fallback emptyToo)
  else if c = '+' then some (.alternative emptyToo)
  else if c = '?' then some (.demand emptyToo)
  else if c = '=' then some (.assignment emptyToo)
  else none

/-- A character that is no operator stands in the place of one. -/
def noOperator : Reader Operation := do
  modify fun s => { s with rest := s.rest.drop 1 }
  return .invalid

/-- The operator in front of which a parameter's name ends; the brace that closes the
expansion stays. A brace behind a colon is part of the operator and closes nothing. -/
def operation : Reader Operation := do
  match ← peek? with
  | some ':' =>
    skip
    match ← peek? with
    | some c =>
      match operationOf? c true with
      | some operation =>
        skip
        return operation
      | none => noOperator
    | none => return .invalid
  | some '%' =>
    skip
    return .trim true (← skipIf '%')
  | some '#' =>
    skip
    return .trim false (← skipIf '#')
  | some c =>
    match operationOf? c false with
    | some operation =>
      if c ≠ '\x7d' then skip
      return operation
    | none => noOperator
  | none => return .invalid

/-- The name of a parameter in braces. -/
def bracedName : Reader Text := do
  match ← peek? with
  | some c =>
    if isNameStart c then takeWhile isNameChar
    else if c.isDigit then takeWhile Char.isDigit
    else if isSpecial c then
      skip
      return [c]
    else return []
  | none => return []

/-- The parameter between braces, up to what stands behind its operator. -/
def bracedHead : Reader (Text × Operation) := do
  if (← peek?) = some '#' then
    let s ← get
    skip
    match ← peek? with
    | some c =>
      if isNameChar c then
        let name ← bracedName
        return (name, if (← peek?) = some '\x7d' then .length else .invalid)
      else
        let behind ← get
        skip
        if c ≠ '\x7d' ∧ (← peek?) = some '\x7d' then
          return ([c], if isSpecial c then .length else .invalid)
        else
          set behind
          return (['#'], ← operation)
    | none =>
      set s
      return ([], .invalid)
  else
    let name ← bracedName
    if name = [] ∧ (← peek?) = some '\x7d' then return ([], .invalid)
    return (name, ← if name = [] then noOperator else operation)

/-- Where the text behind the operator of a parameter stands. -/
def operandSetting (s : Setting) : Operation → Setting
  | .trim _ _ => ⟨.bare, true, false, s.document⟩
  | _ => ⟨if s.surround = .sum then .quotes else s.surround, true, false, s.document⟩

/-- A parameter between braces. If no brace has closed it, what stands up to the next one
follows its value, and the word stops there. -/
def braced (nested : Nested) (s : Setting) : Reader Word := do
  let (name, operation) ← bracedHead
  let operand ← nested.parts (operandSetting s operation)
  if operation = .value true then return .parameter name operation [] :: operand ++ [.stop]
  else return closing (.parameter name operation) operand

/-! ## Commands in words -/

/-- The documents that were still awaited are empty. -/
def emptyDocuments : Reader Unit :=
  modify fun s =>
    { s with
      documents := s.awaited.map (fun a => (a.index, [])) ++ s.documents
      awaited := [] }

/-- The commands between `$(` and the closing parenthesis. -/
def bracketed (nested : Nested) : Reader Part := do
  let outer := (← get).awaited
  modify ({ · with awaited := [] })
  let commands ← nested.commands
  let token ← nested.token
  if token.isOperator ")" then
    emptyDocuments
    modify ({ · with awaited := outer, ahead := none })
    return .substitution commands
  else unexpected token (some (.operator ")"))

/-- The text up to the closing backquote, where a backslash protects a backslash, a
dollar sign and a backquote, and between quotation marks these as well. -/
def backquotedText (quoted : Bool) : Nat → Reader Text
  | 0 => fail "EOF in backquote substitution"
  | fuel + 1 => do
    match ← peek? with
    | none => fail "EOF in backquote substitution"
    | some '\x60' =>
      skip
      return []
    | some '\\' =>
      skip
      match ← peekPlain? with
      | none => fail "EOF in backquote substitution"
      | some c =>
        skip
        let rest ← backquotedText quoted fuel
        return if c = '\\' ∨ c = '\x60' ∨ c = '$' ∨ (quoted ∧ c = '"') then c :: rest
          else '\\' :: c :: rest
    | some c =>
      skip
      return c :: (← backquotedText quoted fuel)

/-- The commands between backquotes. -/
def backquoted (nested : Nested) (s : Setting) : Reader Part := do
  let text ← backquotedText (s.surround ≠ .bare) ((← get).rest.length + 1)
  within text 1 do
    let commands ← nested.commands
    emptyDocuments
    return .substitution commands

/-! ## Parts -/

/-- What begins with a dollar sign, which has been passed over. -/
def dollar (nested : Nested) (s : Setting) : Reader Word := do
  let literal : Word := [.literal ['$'] (s.surround ≠ .bare)]
  if s.plain then return literal
  match ← peek? with
  | some '(' =>
    skip
    if ← skipIf '(' then
      return closing .arithmetic (← nested.parts ⟨.sum, false, false, s.document⟩)
    else return [← bracketed nested]
  | some '\x7b' =>
    skip
    braced nested s
  | some c =>
    if isNameStart c then return [.parameter (← takeWhile isNameChar) (.value false) []]
    else if c.isDigit ∨ isSpecial c then
      skip
      return [.parameter [c] (.value false) []]
    else return literal
  | none => return literal

/-- What a backslash, which has been passed over, makes of the next character. -/
def escaped (s : Setting) : Reader Part := do
  match ← peekPlain? with
  | none => return .literal ['\\'] true
  | some c =>
    skip
    let keeps := s.surround ≠ .bare ∧ c ≠ '\\' ∧ c ≠ '\x60' ∧ c ≠ '$'
      ∧ (c ≠ '"' ∨ (s.surround = .document ∧ ¬ s.braces)) ∧ (c ≠ '\x7d' ∨ ¬ s.braces)
    return .literal (if keeps then ['\\', c] else [c]) true

/-- The end of the text, or of the document, is met where parts are read. -/
def unfinished (s : Setting) : Reader Unit :=
  match s.surround with
  | .sum => fail "Missing \x27))\x27"
  | .quotes =>
    if s.document = none then fail "Unterminated quoted string" else fail "Missing \x27\x7d\x27"
  | _ => if s.braces then fail "Missing \x27\x7d\x27" else return ()

/-- What a line of a document begins with; nothing, if the line is the document's
delimiter, which is passed over. Lines joined in front of the line are looked through,
those joined behind its tabs are not. -/
def lineStart? (document : Option Awaited) : Reader (Option Word) := do
  match document with
  | none => return some []
  | some a =>
    let _ ← peek?
    let s ← get
    let text := if a.unindented then s.rest.dropWhile (· = '\t') else s.rest
    let behind := text.drop a.delimiter.length
    if text.isPrefixOf a.delimiter ∨ text = ['\\'] then noteEnd
    let s ← get
    if text.take a.delimiter.length = a.delimiter ∧ behind.head?.all (· = '\n') then
      set { s with rest := behind }
      skip
      return none
    else match text with
      | '\\' :: '\n' :: rest =>
        set { s with rest, line := s.line + 1 }
        return some [.literal ['\\', '\n'] true]
      | _ =>
        set { s with rest := text }
        return some []

/-- The text up to a closing apostrophe. -/
def apostrophes (s : Setting) : Reader Text := do
  match s.document with
  | none =>
    match ← takeUntil? '\x27' with
    | some text => return text
    | none => fail "Unterminated quoted string"
  | some _ => lines ((← get).rest.length + 1)
where
  /-- The text in lines of a document. -/
  lines : Nat → Reader Text
    | 0 => fail "Missing \x27\x7d\x27"
    | fuel + 1 => do
      match ← peekPlain? with
      | none => fail "Missing \x27\x7d\x27"
      | some '\x27' => skip; return []
      | some '\n' =>
        skip
        match ← lineStart? s.document with
        | none => fail "Missing \x27\x7d\x27"
        | some _ => return '\n' :: (← lines fuel)
      | some c => skip; return c :: (← lines fuel)

/-- The parts up to the end of their setting. `inner` tells whether marks inside braces
have opened a quotation, `depth` counts the parentheses open in a sum, `parts` are the
parts read, last one first. -/
def partsLoop (nested : Nested) (s : Setting) : Nat → Bool → Nat → Word → Reader Word
  | 0, _, _, parts => return parts.reverse
  | fuel + 1, inner, depth, parts => do
    let quoted := s.surround ≠ .bare
    let moreAll (found : Word) : Reader Word :=
      partsLoop nested s fuel inner depth (found.reverse ++ parts)
    let more (part : Part) : Reader Word := moreAll [part]
    match ← peek? with
    | none =>
      unfinished s
      return parts.reverse
    | some c =>
      if ¬ quoted ∧ ¬ s.braces ∧ endsWord c then return parts.reverse
      else
        skip
        if c = '\\' then more (← escaped s)
        else if c = '$' then moreAll (← dollar nested s)
        else if c = '\x60' then
          if s.plain then more (.literal [c] quoted) else more (← backquoted nested s)
        else if c = '\x7d' ∧ s.braces ∧ ¬ inner then return parts.reverse
        else if c = '\x27' ∧ ¬ quoted then
          more (.literal (← apostrophes s) true)
        else if c = '"' then
          match s.surround with
          | .bare => moreAll (quotations (← nested.parts ⟨.quotes, false, s.plain, s.document⟩))
          | .sum => more (.literal [c] true)
          | .quotes =>
            if s.braces then partsLoop nested s fuel (! inner) depth parts
            else return parts.reverse
          | .document =>
            if s.braces then partsLoop nested s fuel (! inner) depth parts
            else more (.literal [c] true)
        else if s.surround = .sum ∧ c = '(' then
          partsLoop nested s fuel inner (depth + 1) (.literal [c] true :: parts)
        else if s.surround = .sum ∧ c = ')' then
          match depth with
          | depth + 1 => partsLoop nested s fuel inner depth (.literal [c] true :: parts)
          | 0 =>
            if ← skipIf ')' then return parts.reverse
            else more (.literal [c] true)
        else if c = '\n' then
          match ← lineStart? s.document with
          | some start =>
            partsLoop nested s fuel inner depth (start ++ .literal [c] quoted :: parts)
          | none =>
            unfinished s
            return (.literal [c] quoted :: parts).reverse
        else more (.literal [c] quoted)

/-- The parts up to the end of their setting. -/
def partsIn (nested : Nested) (s : Setting) : Reader Word := do
  return gather (← partsLoop nested s ((← get).rest.length + 1) false 0 [])

end Reader
end LineShell.Script
