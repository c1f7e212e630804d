/-
# LineShell.Script.Arithmetic -- sums

A sum is an expression over integers of 64 bits and variables, with the operators of
the usual precedence, assignments, and a choice between two expressions. What an
operator comes to is said here; the values of variables are known to the script that
works out the sum.

Where a text is no sum, the expression holds a failure at the place where that shows. So
what stands in front of it can still be worked out.
-/

import LineShell.Script.Bytes

namespace LineShell.Script

/-- **Binary** — the operators that take two values. -/
inductive Binary
  | times | over | rest
  | plus | minus
  | shiftLeft | shiftRight
  | less | lessEqual | greater | greaterEqual
  | equal | unequal
  | bitAnd | bitXor | bitOr
  deriving DecidableEq, Repr

/-- **Unary** — the operators that take one value. -/
inductive Unary
  | plus | minus | not | complement
  deriving DecidableEq, Repr

/-- **Expression** — a sum that was read: maybe one that breaks off, with a message. -/
inductive Expression
  | failure (message : Text)
  | broken (inside : Expression) (message : Text)
  | number (value : Int)
  | variable (name : Text)
  | unary (operator : Unary) (operand : Expression)
  | binary (operator : Binary) (first second : Expression)
  | both (first second : Expression)
  | either (first second : Expression)
  | choice (condition yes no : Expression)
  | assignment (name : Text) (operator : Option Binary) (value : Expression)
  deriving Repr

/-! ## Values -/

/-- Truth as a value. -/
def truth (b : Bool) : Int := if b then 1 else 0

/-- The bits of a value. -/
def bits (n : Int) : BitVec 64 := BitVec.ofInt 64 n

/-- **Division error** — why two values cannot be divided: by zero, or because the
quotient of the least value and minus one does not fit. -/
inductive DivisionError
  | byZero
  | overflow
  deriving DecidableEq, Repr

/-- Two values are divided, where that is possible. -/
def divided (a b quotient : Int) : Except DivisionError Int :=
  if b = 0 then .error .byZero
  else if a = integerMin ∧ b = -1 then .error .overflow
  else .ok quotient

/-- The value of a binary operator. -/
def Binary.apply (a b : Int) : Binary → Except DivisionError Int
  | .times => .ok (wrapped (a * b))
  | .over => divided a b (Int.tdiv a b)
  | .rest => divided a b (Int.tmod a b)
  | .plus => .ok (wrapped (a + b))
  | .minus => .ok (wrapped (a - b))
  | .shiftLeft => .ok (bits a <<< (b % 64).toNat).toInt
  | .shiftRight => .ok ((bits a).sshiftRight (b % 64).toNat).toInt
  | .less => .ok (truth (a < b))
  | .lessEqual => .ok (truth (a ≤ b))
  | .greater => .ok (truth (b < a))
  | .greaterEqual => .ok (truth (b ≤ a))
  | .equal => .ok (truth (a = b))
  | .unequal => .ok (truth (a ≠ b))
  | .bitAnd => .ok (bits a &&& bits b).toInt
  | .bitXor => .ok (bits a ^^^ bits b).toInt
  | .bitOr => .ok (bits a ||| bits b).toInt

/-- The value of a unary operator. -/
def Unary.apply (a : Int) : Unary → Int
  | .plus => a
  | .minus => wrapped (-a)
  | .not => truth (a = 0)
  | .complement => -a - 1

namespace Expression

/-! ## Tokens -/

/-- **Symbol** — what sums are written with. -/
inductive Symbol
  | number (value : Int)
  | variable (name : Text)
  | operator (text : Text)
  | bad
  deriving DecidableEq, Repr

/-- The operators, longer ones before their beginnings. -/
def operators : List Text := List.map String.toList
  ["<<=", ">>=", "<=", ">=", "<<", ">>", "==", "!=", "&&", "||", "*=", "/=", "%=", "+=",
   "-=", "&=", "^=", "|=", "<", ">", "=", "!", "&", "|", "*", "/", "%", "+", "-", "~", "^",
   "?", ":", "(", ")"]

/-- The symbols of a text, at most as many as the fuel tells. -/
def symbolsWithin : Nat → Text → List Symbol
  | 0, _ => []
  | _ + 1, [] => []
  | fuel + 1, c :: rest =>
    if c = ' ' ∨ c = '\t' ∨ c = '\n' then symbolsWithin fuel rest
    else if c.isDigit then
      let numeral := Numeral.read 0 (c :: rest)
      .number numeral.clamped :: symbolsWithin fuel numeral.behind
    else if isNameStart c then
      .variable (c :: rest.takeWhile isNameChar) :: symbolsWithin fuel (rest.dropWhile isNameChar)
    else match operators.find? fun operator => operator.isPrefixOf (c :: rest) with
      | some operator =>
        .operator operator :: symbolsWithin fuel ((c :: rest).drop operator.length)
      | none => [.bad]

/-! ## Reading -/

/-- **Sum reader** — reading from symbols. -/
abbrev SumReader (α : Type) := StateM (List Symbol) α

/-- The expression breaks off; nothing more is read. -/
def fail (message : Text) : SumReader Expression := do
  set ([] : List Symbol)
  return .failure message

/-- The expression breaks off behind another one. -/
def breakOff (inside : Expression) (message : Text) : SumReader Expression := do
  set ([] : List Symbol)
  return .broken inside message

/-- The binary operators of a level, those that bind most closely first. -/
def levels : List (List (Text × Binary)) :=
  [[("*", .times), ("/", .over), ("%", .rest)],
   [("+", .plus), ("-", .minus)],
   [("<<", .shiftLeft), (">>", .shiftRight)],
   [("<", .less), ("<=", .lessEqual), (">", .greater), (">=", .greaterEqual)],
   [("==", .equal), ("!=", .unequal)],
   [("&", .bitAnd)],
   [("^", .bitXor)],
   [("|", .bitOr)]]

/-- The operators that assign, each with what it does to the old value. -/
def assigning : List (Text × Option Binary) :=
  [("=", none), ("*=", some .times), ("/=", some .over), ("%=", some .rest),
   ("+=", some .plus), ("-=", some .minus), ("<<=", some .shiftLeft),
   (">>=", some .shiftRight), ("&=", some .bitAnd), ("^=", some .bitXor),
   ("|=", some .bitOr)]

def unaryOperators : List (Text × Unary) :=
  [("+", .plus), ("-", .minus), ("!", .not), ("~", .complement)]

/-- The next symbol is passed over if it is the given operator. -/
def skipOperator (text : Text) : SumReader Bool := do
  match ← get with
  | .operator other :: rest =>
    if other = text then
      set rest
      return true
    else return false
  | _ => return false

/-- Operators of one level with the operands that `operand` reads, from left to right. -/
def chain (operand : SumReader Expression) (level : List (Text × Binary)) :
    Nat → Expression → SumReader Expression
  | 0, first => return first
  | fuel + 1, first => do
    match ← get with
    | .operator text :: rest =>
      match level.lookup text with
      | some operator =>
        set rest
        let second ← operand
        chain operand level fuel (.binary operator first second)
      | none => return first
    | _ => return first

/-- Binary operators of the given levels, those that bind least closely first. -/
def binaries (operand : SumReader Expression) : List (List (Text × Binary)) →
    SumReader Expression
  | [] => operand
  | level :: closer => do
    let first ← binaries operand closer
    chain (binaries operand closer) level ((← get).length + 1) first

/-- An operand: a number, a variable, or an expression in parentheses that `whole`
reads, with unary operators in front. -/
def operand (whole : SumReader Expression) : Nat → SumReader Expression
  | 0 => fail "expecting primary"
  | fuel + 1 => do
    match ← get with
    | .number value :: rest =>
      set rest
      return .number value
    | .variable name :: rest =>
      set rest
      return .variable name
    | .operator text :: rest =>
      if text = "(" then
        set rest
        let inside ← whole
        if ← skipOperator ")" then return inside
        else breakOff inside "expecting \x27)\x27"
      else match unaryOperators.lookup text with
        | some operator =>
          set rest
          return .unary operator (← operand whole fuel)
        | none => fail "expecting primary"
    | _ => fail "expecting primary"

/-- Expressions joined by `&&`. -/
def conjunction (whole : SumReader Expression) : Nat → SumReader Expression
  | 0 => fail "expecting primary"
  | fuel + 1 => do
    let first ← binaries (operand whole ((← get).length + 1)) levels.reverse
    if ← skipOperator "&&" then return .both first (← conjunction whole fuel)
    else return first

/-- Expressions joined by `||`. -/
def disjunction (whole : SumReader Expression) : Nat → SumReader Expression
  | 0 => fail "expecting primary"
  | fuel + 1 => do
    let first ← conjunction whole (fuel + 1)
    if ← skipOperator "||" then return .either first (← disjunction whole fuel)
    else return first

/-- A choice, or an expression without one. -/
def conditional (whole : SumReader Expression) : Nat → SumReader Expression
  | 0 => fail "expecting primary"
  | fuel + 1 => do
    let condition ← disjunction whole (fuel + 1)
    if ← skipOperator "?" then
      let yes ← whole
      if ← skipOperator ":" then return .choice condition yes (← conditional whole fuel)
      else return .choice condition yes (← fail "expecting \x27:\x27")
    else return condition

/-- An assignment, or an expression without one, `depth` levels deep at most. -/
def wholeAt : Nat → SumReader Expression
  | 0 => fail "expecting primary"
  | depth + 1 => do
    match ← get with
    | .variable name :: .operator text :: rest =>
      match assigning.lookup text with
      | some operator =>
        set rest
        return .assignment name operator (← wholeAt depth)
      | none => conditional (wholeAt depth) ((← get).length + 1)
    | symbols => conditional (wholeAt depth) (symbols.length + 1)

/-- **Reading** a sum. -/
def read (text : Text) : Expression :=
  let symbols := symbolsWithin (text.length + 1) text
  match (wholeAt (symbols.length + 1)).run symbols with
  | (expression, []) => expression
  | (expression, _) => .broken expression "expecting EOF"

end Expression
end LineShell.Script
