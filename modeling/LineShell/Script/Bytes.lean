/-
# LineShell.Script.Bytes -- texts of bytes

Scripts are run by bytes. In the modules about scripts a text therefore holds one
character per byte, with the byte's number; texts of characters become texts of bytes
where a script starts, and bytes become characters again where its output is read.

Numbers stand in such texts in two ways. A plain number is made of decimal digits only.
An integer may have blanks and a sign in front, and where no base is asked for, `0x`
and `0` in front of the digits tell the base.

Tables go by names. A table is shown bucket after bucket, and the bucket of a name depends on
its bytes, the first of which counts more than the others. The names in one bucket are shown
in the order in which they were added.
-/

import LineShell.Text.Utf8

namespace LineShell.Script

/-- The bytes of a text, as characters. -/
def bytesOf (text : Text) : Text := (Text.toBytes text).map fun byte => Char.ofNat byte.toNat

/-- The text that bytes stand for, malformed parts replaced. -/
def textOf (bytes : Text) : Text := Text.ofBytes (bytes.map fun c => UInt8.ofNat c.toNat)

/-! ## Classes -/

def isNameStart (c : Char) : Bool := c.isAlpha || c = '_'

def isNameChar (c : Char) : Bool := c.isAlphanum || c = '_'

/-- The text is a name that a variable or a function may have. -/
def isName : Text → Bool
  | [] => false
  | c :: rest => isNameStart c && rest.all isNameChar

/-- Blanks in front of and behind integers. -/
def isSpace (c : Char) : Bool := c = ' ' || ('\t' ≤ c && c ≤ '\r')

def isOctalDigit (c : Char) : Bool := '0' ≤ c && c ≤ '7'

/-! ## Numbers -/

/-- The value of a digit in any base up to 36. -/
def digitValue? (c : Char) : Option Nat :=
  if c.isDigit then some (c.toNat - '0'.toNat)
  else if 'a' ≤ c && c ≤ 'z' then some (c.toNat - 'a'.toNat + 10)
  else if 'A' ≤ c && c ≤ 'Z' then some (c.toNat - 'A'.toNat + 10)
  else none

def isDigitOf (base : Nat) (c : Char) : Bool :=
  match digitValue? c with
  | some value => value < base
  | none => false

/-- The number that digits denote in a base. -/
def numberIn (base : Nat) (digits : Text) : Nat :=
  digits.foldl (fun n c => base * n + (digitValue? c).getD 0) 0

/-- A plain number. -/
def number? (text : Text) : Option Nat :=
  if text ≠ [] ∧ text.all Char.isDigit then some (numberIn 10 text) else none

/-- The bounds of integers. -/
def integerMax : Int := 0x7fffffffffffffff

def integerMin : Int := -0x8000000000000000

/-- How many integers 64 bits can hold. -/
def wordCount : Nat := 0x10000000000000000

/-- An integer as it is kept in 64 bits. -/
def wrapped (n : Int) : Int := Int.bmod n wordCount

/-- **Numeral** — the integer at the front of a text: whether there is one, its value,
and what stands behind it. -/
structure Numeral where
  present : Bool
  value : Int
  behind : Text

namespace Numeral

/-- The base of a numeral and its digits with what is behind them; base 0 leaves the
choice to the numeral. -/
def split (base : Nat) (text : Text) : Nat × Text :=
  match text with
  | '0' :: x :: digit :: rest =>
    if (base = 0 ∨ base = 16) ∧ (x = 'x' ∨ x = 'X') ∧ isDigitOf 16 digit then
      (16, digit :: rest)
    else (if base = 0 then 8 else base, text)
  | '0' :: _ => (if base = 0 then 8 else base, text)
  | _ => (if base = 0 then 10 else base, text)

/-- **Reading** the numeral at the front of a text. -/
def read (base : Nat) (text : Text) : Numeral :=
  let unspaced := text.dropWhile isSpace
  let (negative, unsigned) := match unspaced with
    | '-' :: rest => (true, rest)
    | '+' :: rest => (false, rest)
    | rest => (false, rest)
  let (base, digits) := split base unsigned
  let taken := digits.takeWhile (isDigitOf base)
  if taken = [] then ⟨false, 0, text⟩
  else
    let value : Int := numberIn base taken
    ⟨true, if negative then - value else value, digits.drop taken.length⟩

/-- The value fits in 64 bits with a sign. -/
def fits (n : Numeral) : Bool := integerMin ≤ n.value && n.value ≤ integerMax

/-- The value cut off at the bounds. -/
def clamped (n : Numeral) : Int := max integerMin (min integerMax n.value)

end Numeral

/-- The integer that a whole text denotes, blanks around it aside. Only where no base is
asked for may there be none, which counts as zero. -/
def integer? (base : Nat) (text : Text) : Option Int :=
  let numeral := Numeral.read base text
  if numeral.fits ∧ (numeral.present ∨ base = 0) ∧ numeral.behind.all isSpace then
    some numeral.value
  else none

/-! ## Tables -/

namespace Bucket

/-- The number that decides about the bucket of a name. -/
def number (name : Text) : Nat :=
  name.foldl (fun sum c => sum + c.toNat) (16 * (name.head?.map Char.toNat).getD 0)

/-- Entries in the order of their buckets. -/
def ordered {α : Type} (bucketOf : Text → Nat) (count : Nat) (entries : List (Text × α)) :
    List (Text × α) :=
  (List.range count).flatMap fun n => entries.filter fun entry => bucketOf entry.1 = n

/-- How many buckets there are for aliases. -/
def aliasCount : Nat := 39

/-- Aliases in the order in which they are shown. -/
def aliases {α : Type} : List (Text × α) → List (Text × α) :=
  ordered (fun name => number name % aliasCount) aliasCount

/-- How many buckets there are for programs. -/
def programCount : Nat := 31

/-- Programs in the order in which they are shown. -/
def programs {α : Type} : List (Text × α) → List (Text × α) :=
  ordered (fun name => number name % 0x8000 % programCount) programCount

/-- An entry takes the place of the one with its name, or the last place. -/
def put {α : Type} (name : Text) (entry : α) (entries : List (Text × α)) : List (Text × α) :=
  if entries.any (·.1 = name) then
    entries.map fun (other, old) => (other, if other = name then entry else old)
  else entries ++ [(name, entry)]

end Bucket
end LineShell.Script
