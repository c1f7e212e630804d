/-
# LineShell.Script.Expansion -- what the words of a script stand for

Expanding a word gives marks: letters of the word itself, and letters of the texts that
stand for its parameters, commands and sums. Between quotation marks all of them are
quoted. Where a word may become several fields, letters that come from an unquoted part
may separate them; then the paths that fit the fields' patterns take their place.

Words hold commands. How these are run is handed in as a `Capture`: it gives the bytes
that they write. A tilde in front of an account's name stands for the account's home
directory; the accounts are the ones that every system starts with.
-/

import LineShell.Script.Arithmetic
import LineShell.Script.Files

namespace LineShell.Script

/-! ## Accounts -/

/-- **Account** — a name and a home directory. -/
structure Account where
  name : Text
  home : Text
  deriving DecidableEq, Repr

namespace Account

/-- The accounts that every system starts with. -/
def standard : List Account :=
  [⟨"root", "/root"⟩, ⟨"daemon", "/usr/sbin"⟩, ⟨"bin", "/bin"⟩, ⟨"sys", "/dev"⟩,
   ⟨"sync", "/bin"⟩, ⟨"games", "/usr/games"⟩, ⟨"man", "/var/cache/man"⟩,
   ⟨"lp", "/var/spool/lpd"⟩, ⟨"mail", "/var/mail"⟩, ⟨"news", "/var/spool/news"⟩,
   ⟨"uucp", "/var/spool/uucp"⟩, ⟨"proxy", "/bin"⟩, ⟨"www-data", "/var/www"⟩,
   ⟨"backup", "/var/backups"⟩, ⟨"list", "/var/list"⟩, ⟨"irc", "/run/ircd"⟩,
   ⟨"_apt", "/nonexistent"⟩, ⟨"nobody", "/nonexistent"⟩]

/-- The home directory of the account with a name. -/
def home? (name : Text) : Option Text :=
  (standard.find? (·.name = name)).map (·.home)

end Account

/-! ## Ways to expand -/

/-- **Capture** — runs commands and gives what they write. -/
abbrev Capture := Option Command → Step Text

/-- **Tilde** — where a tilde stands for the home directory: nowhere, in front of a word,
or in front of each of the paths of an assignment. -/
inductive Tilde
  | none
  | word
  | assignment
  deriving DecidableEq, Repr

/-- **Mode** — how the parts of a word expand: between quotation marks; so that fields
may be separated in what they stand for, or in literal letters, too; with tildes. -/
structure Mode where
  quoted : Bool
  splits : Bool
  splitsLiterals : Bool
  tilde : Tilde
  deriving DecidableEq, Repr

namespace Mode

/-- The mode of words that become fields. -/
def fields : Mode := ⟨false, true, false, .word⟩

/-- The mode of words that stay one text. -/
def fixed : Mode := ⟨false, false, false, .word⟩

/-- The mode of the values of variables. -/
def assigned : Mode := ⟨false, false, false, .assignment⟩

/-- The mode of documents and sums. -/
def document : Mode := ⟨true, false, false, .none⟩

/-- The mode without fields. -/
def whole (mode : Mode) : Mode := { mode with splits := false }

def quotation (mode : Mode) : Mode := { mode with quoted := true, tilde := .none }

/-- The mode of the word that a parameter without value stands for. -/
def fallback (mode : Mode) : Mode :=
  { mode with
    splitsLiterals := mode.splits && ! mode.quoted
    tilde := if mode.quoted then .none else .word }

end Mode

namespace Step

/-! ## Sums -/

/-- The value of a variable in a sum. -/
def integerValue (name : Text) : Step Int := do
  let text := (← value? name).getD []
  match integer? 0 text with
  | some n => return n
  | none => fail ("Illegal number: " ++ text)

/-- The sum `written` fails. -/
def failSum {α : Type} (written message : Text) : Step α :=
  fail ("arithmetic expression: " ++ message ++ ": \"" ++ written ++ ['"'])

/-- The value of a binary operator in the sum `written`. A quotient that does not fit ends
the process, whatever it does about signals. -/
def applyBinary (written : Text) (operator : Binary) (a b : Int) : Step Int := do
  match operator.apply a b with
  | .ok n => return n
  | .error .byZero => failSum written "division by zero"
  | .error .overflow => stop (.killed Signal.floatingPoint)

/-- The value of the sum `written`, or of a piece of it. A piece that does not count has
no effect and no value; it is only looked at for where it breaks off. -/
def sum (written : Text) (counts : Bool) : Expression → Step Int
  | .failure message => failSum written message
  | .broken inside message => do
    let _ ← sum written counts inside
    failSum written message
  | .number n => return n
  | .variable name => if counts then integerValue name else return 0
  | .unary operator operand => return operator.apply (← sum written counts operand)
  | .binary operator first second => do
    let a ← sum written counts first
    let b ← sum written counts second
    if counts then applyBinary written operator a b else return 0
  | .both first second => do
    let a ← sum written counts first
    let b ← sum written (counts && a ≠ 0) second
    return truth (a ≠ 0 && b ≠ 0)
  | .either first second => do
    let a ← sum written counts first
    let b ← sum written (counts && a = 0) second
    return truth (a ≠ 0 || b ≠ 0)
  | .choice condition yes no => do
    let c ← sum written counts condition
    let a ← sum written (counts && c ≠ 0) yes
    let b ← sum written (counts && c = 0) no
    return if c ≠ 0 then a else b
  | .assignment name operator value => do
    let new ← sum written counts value
    if ¬ counts then return 0
    let result ← match operator with
      | none => pure new
      | some operator => do applyBinary written operator (← integerValue name) new
    setVariable name (Text.ofInt result)
    return result

/-- The value of a sum as it is written. -/
def arithmetic (written : Text) : Step Text :=
  return Text.ofInt (← sum written true (Expression.read written))

/-! ## Marks -/

/-- The marks of a text that something stands for. -/
def valueMarks (mode : Mode) (text : Text) : List Mark :=
  if mode.quoted then [.present, .text text true false]
  else [.edge, .text text false mode.splits]

/-- What stands between arguments that become one text. -/
def joint : Step Text := do
  match ← value? "IFS" with
  | some separators => return separators.take 1
  | none => return [' ']

/-- The arguments as one text. -/
def joinedArguments : Step Text := do
  return (← joint).intercalate (← ask (·.parameters))

/-- The arguments stay apart in a word of the given mode. -/
def keepsApart (mode : Mode) (name : Text) : Bool :=
  mode.splits && (! mode.quoted || name = ['@'])

/-- The marks of arguments in one text, in which NUL stands between those that stay
apart. -/
def argumentMarks (mode : Mode) (arguments : Text) : List Mark :=
  let apart (between : Mark) : List Mark :=
    ((arguments.splitOn '\x00').map fun argument =>
      Mark.text argument mode.quoted (! mode.quoted)).intersperse between
  if mode.quoted then .arguments :: apart .cut else .edge :: apart .gap

def isArguments (name : Text) : Bool := name = ['@'] || name = ['*']

/-- The value of a parameter; all arguments together always have one. -/
def valueOf? (mode : Mode) (name : Text) : Step (Option Text) := do
  if isArguments name then
    if keepsApart mode name then return some (['\x00'].intercalate (← ask (·.parameters)))
    else return some (← joinedArguments)
  else parameter? name

/-- The marks of a parameter that has the given value. Quoted arguments leave no mark if
there are none. -/
def parameterMarks (mode : Mode) (name value : Text) : Step (List Mark) := do
  if isArguments name ∧ keepsApart mode name then
    if mode.quoted ∧ (← ask (·.parameters)).isEmpty then return [.text value true false]
    else return argumentMarks mode value
  else return valueMarks mode value

/-- The marks of a parameter, if it has a value. -/
def parameterMarks? (mode : Mode) (name : Text) : Option Text → Step (List Mark)
  | some value => parameterMarks mode name value
  | none => return []

/-- The value of a parameter, which should have one. -/
def expectedValue? (mode : Mode) (name : Text) : Step (Option Text) := do
  let value ← valueOf? mode name
  if value.isNone ∧ (← hasOption 'u') then fail (name ++ ": parameter not set")
  return value

/-- The home directory of the account with a name; without a name the script's own. -/
def homeOf? : Text → Step (Option Text)
  | [] => value? "HOME"
  | name => return Account.home? name

/-- The marks of literal text in which a tilde, and the name of an account behind it, stand
for a home directory. They stay as they are if there is none. The flags tell whether a
tilde may stand in front, and whether the word ends with the text. -/
def tildeMarks (mode : Mode) (ends : Bool) : Nat → Bool → Text → Step (List Mark)
  | 0, _, _ => return []
  | fuel + 1, start, text => do
    let goesOn (c : Char) : Bool := c ≠ '/' && (mode.tilde ≠ .assignment || c ≠ ':')
    match text with
    | [] => return []
    | c :: rest =>
      let name := rest.takeWhile goesOn
      let behind := rest.drop name.length
      let stands := start && c = '~' && (behind ≠ [] || ends)
      match ← if stands then homeOf? name else pure none with
      | some home =>
        return .text home true false :: (← tildeMarks mode ends fuel false behind)
      | none =>
        let next := mode.tilde = .assignment && c = ':'
        return .text [c] false mode.splitsLiterals :: (← tildeMarks mode ends fuel next rest)

/-- The marks of literal text. -/
def literalMarks (mode : Mode) (start ends quoted : Bool) (text : Text) : Step (List Mark) :=
  if quoted ∨ mode.quoted then return [.present, .text text true false]
  else if mode.tilde = .none ∨ '~' ∉ text then
    return Mark.bordered [.text text false mode.splitsLiterals]
  else return Mark.bordered (← tildeMarks mode ends (text.length + 1) start text)

/-- The quotation holds nothing but the arguments one by one. -/
def isArgumentList : Word → Bool
  | [.parameter ['@'] (.value _) _] => true
  | _ => false

mutual

/-- The marks of a part of a word. The flags tell whether the word begins and ends with
it. -/
def partMarks (capture : Capture) (mode : Mode) (start ends : Bool) : Part → Step (List Mark)
  | .literal text quoted => literalMarks mode start ends quoted text
  | .quotation parts => do
    let inside ← marks capture mode.quotation true parts
    if isArgumentList parts ∧ mode.splits then return inside
    else return .present :: inside
  | .substitution commands => do
    let written ← capture commands
    let kept := (written.reverse.dropWhile (· = '\n')).reverse.filter (· ≠ '\x00')
    return valueMarks mode kept
  | .arithmetic expression => do
    let written ← marks capture Mode.document true expression
    return valueMarks mode (← arithmetic (Mark.toText written))
  | .stop => return []
  | .parameter name operation operand => do
    let lacks (emptyToo : Bool) : Option Text → Bool
      | none => true
      | some value => emptyToo && value = []
    match operation with
    | .value emptyToo =>
      let value ← expectedValue? mode name
      if value = some [] ∧ emptyToo ∧ (← hasOption 'u') then
        fail (name ++ ": parameter not set")
      parameterMarks? mode name value
    | .length =>
      let value ← expectedValue? mode.whole name
      parameterMarks mode name (Text.ofInt (value.getD []).length)
    | .fallback emptyToo =>
      let value ← valueOf? mode name
      if lacks emptyToo value then marks capture mode.fallback true operand
      else parameterMarks? mode name value
    | .alternative emptyToo =>
      if lacks emptyToo (← valueOf? mode name) then parameterMarks mode name []
      else marks capture mode.fallback true operand
    | .assignment emptyToo =>
      let value ← valueOf? mode name
      if lacks emptyToo value then
        let new := Mark.toText (← marks capture mode.fallback.whole true operand)
        if ¬ isName name then fail (name ++ ": bad variable name")
        setVariable name new
        parameterMarks mode name new
      else parameterMarks? mode name value
    | .demand emptyToo =>
      let value ← valueOf? mode name
      if lacks emptyToo value then
        let message ← if operand.isEmpty then
            pure ("parameter not set" ++ if emptyToo then " or null" else "" : Text)
          else do
            pure (Mark.toText (← marks capture mode.fallback.whole true operand))
        fail (name ++ ": " ++ message)
      else parameterMarks? mode name value
    | .trim atEnd longest =>
      match ← expectedValue? mode name with
      | none => return []
      | some value =>
        let pattern := Mark.letters (← marks capture Mode.fixed true operand)
        parameterMarks mode name (pattern.trim atEnd longest value)
    | .invalid => fail "Bad substitution"

/-- The marks of the parts of a word; the flag tells whether it begins with them. -/
def marks (capture : Capture) (mode : Mode) (start : Bool) : List Part → Step (List Mark)
  | [] => return []
  | .stop :: _ => return []
  | part :: rest => do
    let first ← partMarks capture mode start rest.isEmpty part
    return first ++ (← marks capture mode false rest)

end

/-! ## Words -/

/-- **The text** that a word stands for where it stays one. -/
def expandText (capture : Capture) (mode : Mode) (word : Word) : Step Text :=
  return Mark.toText (← marks capture mode true word)

/-- **The pattern** that a word stands for. -/
def expandPattern (capture : Capture) (word : Word) : Step Pattern :=
  return Mark.letters (← marks capture Mode.fixed true word)

/-- **The fields** that a word stands for. -/
def expandFields (capture : Capture) (word : Word) : Step (List Text) := do
  let fields := Field.ofMarks (← separators) (← marks capture Mode.fields true word)
  return (← fields.mapM paths).flatten

/-- The fields of several words. -/
def expandAll (capture : Capture) (words : List Word) : Step (List Text) :=
  return (← words.mapM (expandFields capture)).flatten

end Step
end LineShell.Script
