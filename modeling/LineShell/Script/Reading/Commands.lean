/-
# LineShell.Script.Reading.Commands -- reading the commands of a script

A list of commands is made of and-or lists, these of pipelines, and these of commands,
simple or compound. Compound commands hold lists again. A list inside another command
ends where a token stands that only the outer command can use; the outermost list ends
with its line.

Every level of nesting takes one unit of the depth that reading starts with.
-/

import LineShell.Script.Reading.Tokens

namespace LineShell.Script.Reader

/-- The tokens that end a list inside a command. -/
def endsList : Token → Bool
  | .finish => true
  | .operator text => text = ";;" || text = ")"
  | .reserved text =>
    (["do", "done", "elif", "else", "esac", "fi", "then", ['\x7d']] : List Text).contains text
  | _ => false

/-- The next token has to be a given one. -/
def expect (nested : Nested) (wanted : Token) : Reader Unit := do
  let found ← token nested .argument
  match found, wanted with
  | .reserved a, .reserved b => if a = b then return () else unexpected found (some wanted)
  | .operator a, .operator b => if a = b then return () else unexpected found (some wanted)
  | _, _ => unexpected found (some wanted)

/-- The text of a delimiter and whether some of it is quoted. -/
def delimiterOf : Word → Text × Bool
  | [] => ([], false)
  | .literal text quoted :: rest =>
    let (more, other) := delimiterOf rest
    (text ++ more, quoted || other)
  | .quotation [.literal text _] :: rest => (text ++ (delimiterOf rest).1, true)
  | .quotation _ :: rest => ((delimiterOf rest).1, true)
  | _ :: rest => delimiterOf rest

/-- The redirect that an operator and its word make; a document is awaited from here on. -/
def redirectOf (descriptor : Option Nat) (operator : Text) (word : Word) :
    Reader Redirect := do
  let isInput := operator.head? = some '<'
  let descriptor := descriptor.getD (if isInput then 0 else 1)
  if operator = "<<" ∨ operator = "<<-" then
    let (delimiter, quoted) := delimiterOf word
    let s ← get
    set { s with
      count := s.count + 1
      awaited := s.awaited ++ [Awaited.mk s.count delimiter quoted (operator = "<<-")] }
    return .document descriptor s.count
  else if operator = "<&" ∨ operator = ">&" then
    match plainText? word with
    | some ['-'] => return .copy descriptor none
    | some [c] =>
      if c.isDigit then return .copy descriptor (digitValue? c)
      else return .named descriptor word
    | _ => return .named descriptor word
  else
    let access : Access :=
      if operator = "<" then .read else if operator = "<>" then .readWrite
      else if operator = ">>" then .append else if operator = ">|" then .force else .write
    return .file descriptor access word

/-- The redirect whose operator was read. -/
def redirect (nested : Nested) (descriptor : Option Nat) (operator : Text) :
    Reader Redirect := do
  let look : Look := if operator = "<<" ∨ operator = "<<-" then .delimiter else .argument
  match ← token nested look with
  | .word word => redirectOf descriptor operator word
  | other => unexpected other none

/-- The redirects behind a compound command; only behind the command itself may something
stand that is no redirect and has a meaning of its own. -/
def redirectsWithin (nested : Nested) : Nat → Look → Reader (List Redirect)
  | 0, _ => return []
  | fuel + 1, look => do
    match ← token nested look with
    | .redirect descriptor operator =>
      let first ← redirect nested descriptor operator
      return first :: (← redirectsWithin nested fuel .argument)
    | other =>
      pushBack other
      return []

def redirects (nested : Nested) : Reader (List Redirect) := do
  redirectsWithin nested ((← get).rest.length + 1) .begin

/-! ## Simple commands -/

/-- **Draft** — the pieces of a simple command read so far, last ones first. -/
structure Draft where
  assignments : List (Text × Word)
  words : List Word
  redirects : List Redirect

/-- The builtins that no function may be named after. -/
def specialBuiltins : List Text :=
  [".", ":", "break", "continue", "eval", "exec", "exit", "export", "local", "readonly",
   "return", "set", "shift", "times", "trap", "unset"]

/-- A function whose name and opening parenthesis were read. -/
def function (nested : Nested) (command : Reader Command) (word : Word) : Reader Command := do
  expect nested (.operator ")")
  match plainText? word with
  | some name =>
    if isName name ∧ name ∉ specialBuiltins then
      pushBack (← token nested .later)
      return .function name (← command)
    else fail "Bad function name"
  | none => fail "Bad function name"

/-- The pieces of a simple command on `line` up to its end. -/
def simpleWithin (nested : Nested) (command : Reader Command) (line : Nat) :
    Nat → Draft → Reader Command
  | 0, _ => fail "command too long"
  | fuel + 1, d => do
    let finish (token : Token) : Reader Command := do
      pushBack token
      return .simple line d.assignments.reverse d.words.reverse d.redirects.reverse
    match ← token nested (if d.words.isEmpty then .name else .argument) with
    | .word word =>
      match if d.words.isEmpty then assignment? word else none with
      | some assignment =>
        simpleWithin nested command line fuel { d with assignments := assignment :: d.assignments }
      | none => simpleWithin nested command line fuel { d with words := word :: d.words }
    | .redirect descriptor operator =>
      let redirect ← redirect nested descriptor operator
      simpleWithin nested command line fuel { d with redirects := redirect :: d.redirects }
    | .operator ['('] =>
      match d.words, d.assignments, d.redirects with
      | [word], [], [] => function nested command word
      | _, _, _ => finish (.operator "(")
    | other => finish other

/-- A simple command. -/
def simple (nested : Nested) (command : Reader Command) : Reader Command := do
  let s ← get
  simpleWithin nested command s.line (s.rest.length + 2) ⟨[], [], []⟩

/-! ## Compound commands -/

/-- **Lists** — how lists inside commands are read: one that may be empty, and one that
may not. -/
structure Lists where
  any : Reader (Option Command)
  some : Reader (Option Command)

/-- The rest of a branch behind `if` or `elif`. -/
def branchWithin (nested : Nested) (lists : Lists) : Nat → Reader Command
  | 0 => fail "too many branches"
  | fuel + 1 => do
    let condition ← lists.some
    expect nested (.reserved "then")
    let yes ← lists.some
    match ← token nested .argument with
    | .reserved ['e', 'l', 'i', 'f'] =>
      return .branch condition yes (some (← branchWithin nested lists fuel))
    | .reserved ['e', 'l', 's', 'e'] => return .branch condition yes (← lists.some)
    | other =>
      pushBack other
      return .branch condition yes none

/-- The words of a loop up to the end of their line. -/
def itemsWithin (nested : Nested) : Nat → Reader (List Word)
  | 0 => return []
  | fuel + 1 => do
    match ← token nested .argument with
    | .word word => return word :: (← itemsWithin nested fuel)
    | .newline => return []
    | .operator [';'] => return []
    | other => unexpected other none

/-- All arguments, quoted. -/
def allArguments : Word := [.quotation [.parameter ['@'] (.value false) []]]

/-- A loop over words, behind `for`. -/
def forEach (nested : Nested) (lists : Lists) (line : Nat) : Reader Command := do
  let name ← match ← token nested .argument with
    | .word word =>
      match plainText? word with
      | some name => if isName name then pure name else fail "Bad for loop variable"
      | none => fail "Bad for loop variable"
    | _ => fail "Bad for loop variable"
  let items ← match ← token nested .later with
    | .reserved ['i', 'n'] => itemsWithin nested ((← get).rest.length + 1)
    | .operator [';'] => pure [allArguments]
    | other => do
      pushBack other
      pure [allArguments]
  let found ← token nested .later
  unless found.isReserved "do" do
    unexpected found (some (.reserved "do"))
  let body ← lists.some
  expect nested (.reserved "done")
  return .forEach line name items body

/-- The patterns of a case whose first token was read, and the closing parenthesis. -/
def patternsWithin (nested : Nested) : Nat → Token → Reader (List Word)
  | 0, _ => return []
  | fuel + 1, found => do
    let pattern := found.word?.getD []
    match ← token nested .argument with
    | .operator ['|'] => return pattern :: (← patternsWithin nested fuel (← token nested .argument))
    | .operator [')'] => return [pattern]
    | other => unexpected other (some (.operator ")"))

/-- The cases of a choice up to its end. -/
def casesWithin (nested : Nested) (lists : Lists) :
    Nat → Reader (List (List Word × Option Command))
  | 0 => return []
  | fuel + 1 => do
    let found ← token nested .ofCase
    if found.isReserved "esac" then return []
    else
      let found ← if found.isOperator "(" then token nested .argument else pure found
      let patterns ← patternsWithin nested ((← get).rest.length + 1) found
      let body ← lists.any
      let closing ← token nested .ofCase
      if closing.isReserved "esac" then return [(patterns, body)]
      else if closing.isOperator ";;" then
        return (patterns, body) :: (← casesWithin nested lists fuel)
      else unexpected closing (some (.operator ";;"))

/-- A choice, behind `case`. -/
def choice (nested : Nested) (lists : Lists) (line : Nat) : Reader Command := do
  let subject ← match ← token nested .argument with
    | .word word => pure word
    | other => unexpected other (some (.word []))
  let found ← token nested .later
  unless found.isReserved "in" do
    unexpected found (some (.reserved "in"))
  return .choice line subject (← casesWithin nested lists ((← get).rest.length + 1))

/-- A loop, behind `while` or `until`. -/
def loop (nested : Nested) (lists : Lists) (whileFails : Bool) : Reader Command := do
  let condition ← lists.some
  expect nested (.reserved "do")
  let body ← lists.some
  expect nested (.reserved "done")
  return .loop whileFails condition body

/-- A compound command whose first token was read, if it begins one. -/
def compound? (nested : Nested) (lists : Lists) (line : Nat) (first : Token) :
    Reader (Option Command) := do
  match first with
  | .operator ['('] =>
    let body ← lists.some
    expect nested (.operator ")")
    return some (.subshell line body [])
  | .reserved ['\x7b'] =>
    let body ← lists.some
    expect nested (.reserved ['\x7d'])
    return some (.group body)
  | .reserved ['i', 'f'] =>
    let branch ← branchWithin nested lists ((← get).rest.length + 1)
    expect nested (.reserved "fi")
    return some branch
  | .reserved ['w', 'h', 'i', 'l', 'e'] => return some (← loop nested lists false)
  | .reserved ['u', 'n', 't', 'i', 'l'] => return some (← loop nested lists true)
  | .reserved ['f', 'o', 'r'] => return some (← forEach nested lists line)
  | .reserved ['c', 'a', 's', 'e'] => return some (← choice nested lists line)
  | _ => return none

/-- **A command**, simple or compound; `again` reads one inside it. -/
def command (nested : Nested) (lists : Lists) (again : Reader Command) : Reader Command := do
  let line := (← get).line
  let first ← token nested .argument
  match ← compound? nested lists line first with
  | some compound =>
    match compound, ← redirects nested with
    | compound, [] => return compound
    | .subshell line body _, redirects => return .subshell line body redirects
    | .group body, redirects => return .redirected line body redirects
    | compound, redirects => return .redirected line (some compound) redirects
  | none =>
    match first with
    | .word _ | .redirect _ _ =>
      pushBack first
      simple nested again
    | other => unexpected other none

/-! ## Lists -/

/-- The commands behind the first one of a pipeline. -/
def pipedWithin (nested : Nested) (command : Reader Command) : Nat → Reader (List Command)
  | 0 => return []
  | fuel + 1 => do
    match ← token nested .argument with
    | .operator ['|'] =>
      pushBack (← token nested .later)
      let next ← command
      return next :: (← pipedWithin nested command fuel)
    | other =>
      pushBack other
      return []

/-- A pipeline. -/
def pipeline (nested : Nested) (command : Reader Command) : Reader Command := do
  let first ← token nested .argument
  let negated := first.isReserved "!"
  pushBack (← if negated then token nested .begin else pure first)
  let one ← command
  let whole := match ← pipedWithin nested command ((← get).rest.length + 1) with
    | [] => one
    | more => .pipeline (one :: more)
  return if negated then .negation whole else whole

/-- The and-or list behind its first pipelines. -/
def andOrWithin (nested : Nested) (command : Reader Command) : Nat → Command → Reader Command
  | 0, first => return first
  | fuel + 1, first => do
    match ← token nested .argument with
    | .operator ['&', '&'] =>
      pushBack (← token nested .later)
      andOrWithin nested command fuel (.both first (← pipeline nested command))
    | .operator ['|', '|'] =>
      pushBack (← token nested .later)
      andOrWithin nested command fuel (.either first (← pipeline nested command))
    | other =>
      pushBack other
      return first

/-- An and-or list. -/
def andOr (nested : Nested) (command : Reader Command) : Reader Command := do
  let first ← pipeline nested command
  andOrWithin nested command ((← get).rest.length + 1) first

/-- **Extent** — where a list ends: the outermost one with its line, an inner one in
front of a token it cannot use, when it has as many commands as it needs. -/
inductive Extent
  | line
  | inner (mayEnd : Bool)
  deriving DecidableEq, Repr

/-- A list of commands behind the ones read; the flag tells whether the script ends. -/
def listWithin (nested : Nested) (command : Reader Command) :
    Nat → Extent → Option Command → Reader (Option Command × Bool)
  | 0, _, commands => return (commands, true)
  | fuel + 1, extent, commands => do
    match ← token nested (if extent = .line then .begin else .later) with
    | .newline =>
      awaitedDocuments nested
      return (commands, false)
    | .finish =>
      awaitedDocuments nested
      pushBack .finish
      return (commands, true)
    | first =>
      pushBack first
      if extent = .inner true ∧ endsList first then return (commands, false)
      let next ← andOr nested command
      let separator ← token nested .argument
      let next := if separator.isOperator "&" then .background next else next
      let commands := some (Command.after commands next)
      let extent := if extent = .line then .line else .inner true
      match separator with
      | .finish =>
        awaitedDocuments nested
        pushBack .finish
        return (commands, true)
      | .newline =>
        pushBack .newline
        listWithin nested command fuel extent commands
      | .operator ['&'] => listWithin nested command fuel extent commands
      | .operator [';'] => listWithin nested command fuel extent commands
      | other =>
        if extent = .line then unexpected other none
        else
          pushBack other
          return (commands, false)

/-- A list of commands inside another command. -/
def innerList (nested : Nested) (command : Reader Command) (mayBeEmpty : Bool) :
    Reader (Option Command) := do
  let fuel := (← get).rest.length + 2
  return (← listWithin nested command fuel (.inner mayBeEmpty) none).1

mutual

/-- The parts of words, `depth` levels deep at most. -/
def partsAt : Nat → Setting → Reader Word
  | 0, _ => fail "nested too deeply"
  | depth + 1, setting => partsIn ⟨listAt depth true, tokenAt depth, partsAt depth⟩ setting

/-- Tokens whose words are `depth` levels deep at most. -/
def tokenAt : Nat → Reader Token
  | 0 => fail "nested too deeply"
  | depth + 1 => token ⟨listAt depth true, tokenAt depth, partsAt depth⟩ .argument

/-- Commands, `depth` levels deep at most. -/
def commandAt : Nat → Reader Command
  | 0 => fail "nested too deeply"
  | depth + 1 =>
    command ⟨listAt depth true, tokenAt depth, partsAt depth⟩
      ⟨listAt depth true, listAt depth false⟩ (commandAt depth)

/-- Lists of commands, `depth` levels deep at most. -/
def listAt : Nat → Bool → Reader (Option Command)
  | 0, _ => fail "nested too deeply"
  | depth + 1, mayBeEmpty =>
    innerList ⟨listAt depth true, tokenAt depth, partsAt depth⟩ (commandAt depth) mayBeEmpty

end

/-- How deep commands may be nested. -/
def depthLimit : Nat := 1000

/-- Reads a whole text as the parts of a document. -/
def wholeDocument : Reader Word := partsAt depthLimit ⟨.document, false, false, none⟩

/-- **Line** — what one line of a script comes to: commands, or none any more. -/
inductive Line
  | commands (commands : Option Command)
  | finished

/-- **Reading** the commands of the next line of a script, and of as many more lines as
they take. -/
def nextLine : Reader Line := do
  modify ({ · with ahead := none, awaited := [], documents := [] })
  let nested : Nested := ⟨listAt depthLimit true, tokenAt depthLimit, partsAt depthLimit⟩
  let fuel := (← get).rest.length + 2
  match ← listWithin nested (commandAt depthLimit) fuel .line none with
  | (none, true) => return .finished
  | (commands, _) => return .commands commands

end LineShell.Script.Reader
