/-
# LineShell.Script.Decimal -- fractions in decimal notation

A decimal or hexadecimal notation is read as the nearest number with 53 binary digits, and
such numbers are written with a given count of decimal places. Both are worked out
exactly, on whole numbers; where two results are equally near, the even one is taken.

Numbers whose power of two is too great count as infinite. The power of two cannot be less
than -1074, so numbers near zero have fewer binary digits; one of them fits only if it has
no more.
-/

import LineShell.Script.Bytes

namespace LineShell.Script

/-- **Magnitude** — a number without its sign: a multiple of a power of two, or a value
that is no number of that kind. -/
inductive Magnitude
  | finite (factor : Nat) (power : Int)
  | infinite
  | undefined
  deriving DecidableEq, Repr

/-- **Fraction** — a magnitude with a sign. -/
structure Fraction where
  negative : Bool
  magnitude : Magnitude
  deriving DecidableEq, Repr

/-- The whole number nearest to a quotient, the even one of two. -/
def roundedQuotient (n d : Nat) : Nat :=
  let q := n / d
  let twice := 2 * (n % d)
  if twice < d then q
  else if d < twice then q + 1
  else if q % 2 = 0 then q else q + 1

namespace Magnitude

/-- The quotient times a power of the base. -/
def scaled (base : Nat) (q : Nat × Nat) (power : Int) : Nat × Nat :=
  if power < 0 then (q.1, q.2 * Nat.pow base (-power).toNat)
  else (q.1 * Nat.pow base power.toNat, q.2)

/-- The least number with 53 binary digits. -/
def leastFull : Nat := 0x10000000000000

/-- The number with 53 binary digits that is nearest to a quotient. -/
def ofQuotient (n d : Nat) : Magnitude :=
  if n = 0 then .finite 0 0
  else
    let estimate : Int := (n.log2 : Int) - (d.log2 : Int) - 52
    let (first, second) := scaled 2 (n, d) (-estimate)
    let power := max (if first / second < leastFull then estimate - 1 else estimate) (-1074)
    let (first, second) := scaled 2 (n, d) (-power)
    let factor := roundedQuotient first second
    let (factor, power) :=
      if factor = 2 * leastFull then (leastFull, power + 1) else (factor, power)
    if 971 < power then .infinite else .finite factor power

/-- A finite number as a quotient of whole numbers. -/
def quotient (factor : Nat) (power : Int) : Nat × Nat := scaled 2 (factor, 1) power

/-- The number nearest to a quotient is finite, and it has 53 binary digits unless it is
the quotient itself. -/
def fits (n d : Nat) : Bool :=
  match ofQuotient n d with
  | .finite factor power =>
    let q := quotient factor power
    leastFull ≤ factor || q.1 * d = n * q.2
  | _ => false

/-- The digits of a number, at least as many as asked for. -/
def digits (n count : Nat) : Text :=
  let written := Text.ofInt n
  List.replicate (count - written.length) '0' ++ written

/-- Digits with a point in front of the last `places` ones. -/
def pointed (digits : Text) (places : Nat) (always : Bool) : Text :=
  let whole := digits.length - places
  digits.take whole ++ (if places = 0 ∧ ¬ always then [] else '.' :: digits.drop whole)

/-- Positional notation. -/
def positional (q : Nat × Nat) (places : Nat) (point : Bool) : Text :=
  let (n, d) := scaled 10 q places
  pointed (digits (roundedQuotient n d) (places + 1)) places point

/-- The power of ten of the first digit, once the number is rounded to a number of places
behind that digit, and the digits. -/
def leading (q : Nat × Nat) (places : Nat) : Int × Nat :=
  if q.1 = 0 then (0, 0)
  else
    let estimate : Int := (((q.1.log2 : Int) - (q.2.log2 : Int)) * 30103).fdiv 100000 - 1
    let reaches (power : Int) : Bool :=
      let (n, d) := scaled 10 q (-power)
      d ≤ n
    let exponent := if reaches (estimate + 2) then estimate + 2
      else if reaches (estimate + 1) then estimate + 1 else estimate
    let (n, d) := scaled 10 q (places - exponent)
    let rounded := roundedQuotient n d
    let least := Nat.pow 10 places
    if 10 * least ≤ rounded then (exponent + 1, least) else (exponent, rounded)

/-- Notation with an exponent. -/
def scientific (q : Nat × Nat) (places : Nat) (point : Bool) (mark : Char) : Text :=
  let (exponent, rounded) := leading q places
  pointed (digits rounded (places + 1)) places point
    ++ mark :: (if exponent < 0 then '-' else '+') :: digits exponent.natAbs 2

/-- Digits behind a point that are zero at the end are dropped, and the point with them if
none are left. -/
def withoutEndZeros (text : Text) : Text :=
  if '.' ∈ text then
    let kept := text.reverse.dropWhile (· = '0')
    (if kept.head? = some '.' then kept.drop 1 else kept).reverse
  else text

/-- The shorter of both notations with a number of significant digits. -/
def general (q : Nat × Nat) (significant : Nat) (full : Bool) (mark : Char) : Text :=
  let significant := max significant 1
  let (exponent, _) := leading q (significant - 1)
  if -4 ≤ exponent ∧ exponent < significant then
    let text := positional q (significant - 1 - exponent).toNat full
    if full then text else withoutEndZeros text
  else
    let text := scientific q (significant - 1) full mark
    if full then text
    else withoutEndZeros (text.takeWhile (· ≠ mark)) ++ text.dropWhile (· ≠ mark)

/-- The digits of a number between 0 and 15. -/
def hexDigit (n : Nat) : Char := Char.ofNat (if n < 10 then 48 + n else 87 + n)

/-- How many hexadecimal digits stand behind the point at most. -/
def hexPlaces : Nat := 13

/-- Binary notation with hexadecimal digits, as many behind the point as asked for, or as
are needed. The digit in front of the point is zero only for numbers near zero. -/
def hexadecimal (factor : Nat) (power : Int) (places : Option Nat) (point : Bool) : Text :=
  let shift := min (52 - factor.log2) (power + 1074).toNat
  let whole := factor * Nat.pow 2 shift
  let exponent : Int := if factor = 0 then 0 else power - shift + 52
  let kept := min (places.getD hexPlaces) hexPlaces
  let rounded := roundedQuotient whole (Nat.pow 16 (hexPlaces - kept))
  let digits := (List.range kept).map fun i =>
    hexDigit (rounded / Nat.pow 16 (kept - 1 - i) % 16)
  let behind := match places with
    | some places => digits ++ List.replicate (places - kept) '0'
    | none => (digits.reverse.dropWhile (· = '0')).reverse
  hexDigit (rounded / Nat.pow 16 kept) :: (if behind = [] ∧ ¬ point then [] else '.' :: behind)
    ++ 'p' :: (if exponent < 0 then '-' else '+') :: Text.ofInt exponent.natAbs

/-- The mark in front of the digits in the notation that a letter names. -/
def mark (kind : Char) : Magnitude → Text
  | .finite _ _ =>
    match kind with
    | 'a' => ['0', 'x']
    | 'A' => ['0', 'X']
    | _ => []
  | _ => []

/-- **Writing** a magnitude in the notation that a letter names, behind its mark. -/
def write (kind : Char) (precision : Option Nat) (full : Bool) : Magnitude → Text
  | .infinite => if kind.isUpper then "INF" else "inf"
  | .undefined => if kind.isUpper then "NAN" else "nan"
  | .finite factor power =>
    let q := quotient factor power
    let places := precision.getD 6
    match kind with
    | 'f' | 'F' => positional q places full
    | 'e' => scientific q places full 'e'
    | 'E' => scientific q places full 'E'
    | 'g' => general q places full 'e'
    | 'G' => general q places full 'E'
    | 'A' => (hexadecimal factor power precision full).map Char.toUpper
    | _ => hexadecimal factor power precision full

end Magnitude

/-! ## Reading -/

namespace Fraction

/-- **Reading** — the number at the front of a text, what stands behind it, and whether
the number fits. -/
structure Reading where
  value : Fraction
  behind : Text
  fits : Bool

/-- The exponent behind a mark, if one is written, and what stands behind it. -/
def exponentOf (mark : Char) (text : Text) : Int × Text :=
  match text with
  | c :: rest =>
    if c.toLower = mark then
      let numeral := Numeral.read 10 rest
      let unspaced : Bool := match rest with
        | c :: _ => ! isSpace c
        | [] => false
      if numeral.present ∧ unspaced then (numeral.value, numeral.behind) else (0, text)
    else (0, text)
  | [] => (0, [])

/-- A word at the front, in letters of any case, and what stands behind it. -/
def wordAt? (word : Text) (text : Text) : Option Text :=
  if (text.take word.length).map Char.toLower = word then some (text.drop word.length) else none

/-- What stands behind a name between parentheses, if there is one. -/
def behindName (text : Text) : Text :=
  match text with
  | '(' :: rest =>
    match rest.dropWhile isNameChar with
    | ')' :: behind => behind
    | _ => text
  | _ => text

/-- The digits in front of a point and behind it, and what stands behind them. -/
def digitsOf? (isDigit : Char → Bool) (text : Text) : Option (Text × Text × Text) :=
  let whole := text.takeWhile isDigit
  let (places, behind) := match text.drop whole.length with
    | '.' :: rest => (rest.takeWhile isDigit, rest.dropWhile isDigit)
    | rest => ([], rest)
  if whole = [] ∧ places = [] then none else some (whole, places, behind)

/-- The number with a sign that is nearest to a quotient. -/
def ofQuotient (negative : Bool) (q : Nat × Nat) (behind : Text) : Reading :=
  ⟨⟨negative, .ofQuotient q.1 q.2⟩, behind, Magnitude.fits q.1 q.2⟩

/-- An exponent as far as it matters. -/
def bounded (exponent : Int) : Int := max (-5000) (min 5000 exponent)

/-- The hexadecimal number at the front of a text, behind the mark for its base. -/
def hexadecimal? (negative : Bool) (text : Text) : Option Reading :=
  (digitsOf? (isDigitOf 16) text).map fun (whole, places, behind) =>
    let (exponent, behind) := exponentOf 'p' behind
    ofQuotient negative (Magnitude.scaled 2 (numberIn 16 (whole ++ places), 1)
      (bounded exponent - 4 * places.length)) behind

/-- The decimal number at the front of a text. -/
def decimal? (negative : Bool) (text : Text) : Option Reading :=
  (digitsOf? Char.isDigit text).map fun (whole, places, behind) =>
    let (exponent, behind) := exponentOf 'e' behind
    ofQuotient negative (Magnitude.scaled 10 (numberIn 10 (whole ++ places), 1)
      (bounded exponent - places.length)) behind

/-- The number that is written as a word, at the front of a text. -/
def word? (negative : Bool) (text : Text) : Option Reading :=
  match wordAt? "infinity" text, wordAt? "inf" text, wordAt? "nan" text with
  | some behind, _, _ | none, some behind, _ => some ⟨⟨negative, .infinite⟩, behind, true⟩
  | none, none, some behind => some ⟨⟨negative, .undefined⟩, behindName behind, true⟩
  | none, none, none => none

/-- **Reading** the number at the front of a text; without a number it is zero and all
stands behind it. -/
def read (text : Text) : Reading :=
  let (negative, unsigned) := match text.dropWhile isSpace with
    | '-' :: rest => (true, rest)
    | '+' :: rest => (false, rest)
    | rest => (false, rest)
  let marked := match unsigned with
    | '0' :: x :: rest => if x.toLower = 'x' then hexadecimal? negative rest else none
    | _ => none
  ((marked.orElse fun _ => word? negative unsigned).orElse fun _ =>
    decimal? negative unsigned).getD ⟨⟨false, .finite 0 0⟩, text, true⟩

end Fraction
end LineShell.Script
