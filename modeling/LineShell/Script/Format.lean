/-
# LineShell.Script.Format -- writing arguments by a format

A format is a text in which conversions stand for arguments. It is used again as long as
arguments are left and it takes some. Arguments that are missing count as empty or zero.
An argument that is no number is written as far as it is one, and a warning tells so; a
conversion that does not exist ends the writing.
-/

import LineShell.Script.Decimal
import LineShell.Script.Escape

namespace LineShell.Script

/-- **Measure** — a width or precision: written in the format, or given as an argument. -/
inductive Measure
  | number (n : Nat)
  | argument
  deriving DecidableEq, Repr

/-- **Conversion** — what stands for an argument. A star behind digits is out of place: with
all up to the kind it is `stray`, and the conversion is none then. -/
structure Conversion where
  flags : Text
  width : Measure
  precision : Option Measure
  stray : Option Text
  kind : Char
  written : Text
  deriving DecidableEq, Repr

/-- **Piece** — a byte of a format, a conversion, or the place where one is unfinished. -/
inductive Piece
  | byte (c : Char)
  | conversion (c : Conversion)
  | unfinished
  deriving DecidableEq, Repr

/-- **Writing** — the arguments left, what was written, the warnings, the last ones
first, and why the writing ended early, if it did. -/
structure Writing where
  arguments : List Text
  output : List Text
  warnings : List Text
  ended : Option (Option Text)
  deriving DecidableEq, Repr

namespace Format

/-! ## Reading a format -/

def isFlag (c : Char) : Bool := c = '#' || c = '-' || c = '+' || c = ' ' || c = '0'

/-- A measure at the front of a text, what stands behind it from the first star that is out
of place on, and what stands behind all that belongs to the measure. -/
def measure (text : Text) : Measure × Text × Text :=
  match text with
  | '*' :: rest => (.argument, rest, rest)
  | _ =>
    let digits := text.takeWhile Char.isDigit
    let behind := text.drop digits.length
    (.number (numberIn 10 digits), behind, behind.dropWhile fun c => c.isDigit || c = '*')

/-- The conversion behind a percent sign, and what stands behind it. -/
def conversion? (text : Text) : Option (Conversion × Text) :=
  let flags := text.takeWhile isFlag
  let (width, afterWidth, rest) := measure (text.drop flags.length)
  let strayWidth := rest.length < afterWidth.length
  let (precision, afterPrecision, rest) := match rest with
    | '.' :: rest =>
      let (precision, after, rest) := measure rest
      (some precision, after, rest)
    | rest => (none, rest, rest)
  let strayPrecision := rest.length < afterPrecision.length
  match rest with
  | [] => none
  | kind :: behind =>
    let written := '%' :: text.take (text.length - behind.length)
    let upToKind (after : Text) : Text := after.take (after.length - rest.length)
    let stray := if strayWidth then some (upToKind afterWidth)
      else if strayPrecision then some (upToKind afterPrecision) else none
    some (⟨flags, width, precision, stray, kind, written⟩, behind)

/-- The pieces of a format, as many as the fuel tells at most. -/
def piecesWithin : Nat → Text → List Piece
  | 0, _ => []
  | _ + 1, [] => []
  | fuel + 1, '\\' :: rest =>
    let (byte, behind) := Escape.one rest
    .byte byte :: piecesWithin fuel behind
  | fuel + 1, '%' :: '%' :: rest => .byte '%' :: piecesWithin fuel rest
  | fuel + 1, '%' :: rest =>
    match conversion? rest with
    | some (conversion, behind) => .conversion conversion :: piecesWithin fuel behind
    | none => [.unfinished]
  | fuel + 1, c :: rest => .byte c :: piecesWithin fuel rest

def pieces (format : Text) : List Piece := piecesWithin format.length format

/-! ## Layout -/

/-- **Layout** — the flags, the width and the precision of a conversion, worked out. -/
structure Layout where
  left : Bool
  zeros : Bool
  plus : Bool
  space : Bool
  full : Bool
  width : Nat
  precision : Option Nat
  deriving DecidableEq, Repr

namespace Layout

/-- A text filled up with blanks to the width. -/
def pad (l : Layout) (text : Text) : Text :=
  let fill := List.replicate (l.width - text.length) ' '
  if l.left then text ++ fill else fill ++ text

/-- The sign of a number that may have one. -/
def sign (l : Layout) (negative : Bool) : Text :=
  if negative then ['-'] else if l.plus then ['+'] else if l.space then [' '] else []

/-- Digits behind a sign or mark, filled up with zeros or blanks. -/
def number (l : Layout) (front digits : Text) (zeros : Bool) : Text :=
  if zeros ∧ ¬ l.left then
    front ++ List.replicate (l.width - (front.length + digits.length)) '0' ++ digits
  else l.pad (front ++ digits)

/-- The digits of a whole number, as many as the precision asks for. -/
def digits (l : Layout) (base : Nat) (n : Nat) : Text :=
  let written := if n = 0 ∧ l.precision = some 0 then [] else Nat.toDigits base n
  List.replicate (l.precision.getD 0 - written.length) '0' ++ written

/-- A whole number with a sign. -/
def signed (l : Layout) (n : Int) : Text :=
  l.number (l.sign (n < 0)) (l.digits 10 n.natAbs) (l.zeros && l.precision.isNone)

/-- A whole number without a sign, in the base that the kind names. -/
def unsigned (l : Layout) (kind : Char) (n : Nat) : Text :=
  let zeros := l.zeros && l.precision.isNone
  match kind with
  | 'o' =>
    let digits := l.digits 8 n
    l.number [] (if l.full ∧ digits.head? ≠ some '0' then '0' :: digits else digits) zeros
  | 'x' => l.number (if l.full ∧ n ≠ 0 then ['0', 'x'] else []) (l.digits 16 n) zeros
  | 'X' =>
    l.number (if l.full ∧ n ≠ 0 then ['0', 'X'] else []) ((l.digits 16 n).map Char.toUpper) zeros
  | _ => l.number [] (l.digits 10 n) zeros

/-- A fraction. -/
def fraction (l : Layout) (kind : Char) (f : Fraction) : Text :=
  let isNumber := match f.magnitude with
    | .finite _ _ => true
    | _ => false
  l.number (l.sign f.negative ++ f.magnitude.mark kind)
    (f.magnitude.write kind l.precision l.full) (l.zeros && isNumber)

/-- A text, cut at the precision. -/
def string (l : Layout) (text : Text) : Text :=
  l.pad (match l.precision with
    | some n => text.take n
    | none => text)

/-- The greatest width and precision. -/
def limit : Nat := 0x7fffffff

/-- The width and the precision are not too great. -/
def fits (l : Layout) : Bool := l.width ≤ limit && l.precision.getD 0 ≤ limit

/-- What is written in place of a conversion with a stray star: the flags in a fixed order,
and the measures in front of the star. -/
def unread (l : Layout) (stray : Text) (kind : Char) : Text :=
  let precision : Text := match l.precision with
    | some n => '.' :: Text.ofInt n
    | none => []
  let kind : Text := match kind with
    | 'b' => ['s']
    | 'd' | 'i' | 'o' | 'u' | 'x' | 'X' => ['l', kind]
    | _ => [kind]
  ['%'] ++ (if l.full then ['#'] else []) ++ l.sign false ++ (if l.left then ['-'] else [])
    ++ (if l.zeros ∧ ¬ l.left then ['0'] else [])
    ++ (if l.width = 0 then [] else Text.ofInt l.width) ++ precision ++ stray ++ kind

end Layout

/-! ## Arguments -/

/-- The next argument. -/
def next (w : Writing) : Option Text × Writing :=
  match w.arguments with
  | [] => (none, w)
  | argument :: rest => (some argument, { w with arguments := rest })

/-- The warning about an argument of which `behind` is no part of a number. -/
def warned (w : Writing) (argument behind : Text) (fits : Bool) : Writing :=
  let warning (text : Text) : Writing :=
    { w with warnings := (argument ++ ": " ++ text) :: w.warnings }
  if behind ≠ [] then
    if behind = argument then warning "expected numeric value"
    else warning "not completely converted"
  else if fits then w
  else warning "Numerical result out of range"

/-- The byte behind a quotation mark, which may stand for a number. -/
def quotedByte? : Text → Option Nat
  | mark :: rest =>
    if mark = '"' ∨ mark = '\x27' then some ((rest.head?.map Char.toNat).getD 0) else none
  | [] => none

/-- The next argument as an integer. -/
def integer (w : Writing) : Int × Writing :=
  match next w with
  | (none, w) => (0, w)
  | (some argument, w) =>
    match quotedByte? argument with
    | some byte => (byte, w)
    | none =>
      let numeral := Numeral.read 0 argument
      let behind := if numeral.present then numeral.behind else argument
      (numeral.clamped, warned w argument behind numeral.fits)

/-- The next argument as a whole number of 64 bits. -/
def natural (w : Writing) : Nat × Writing :=
  match next w with
  | (none, w) => (0, w)
  | (some argument, w) =>
    match quotedByte? argument with
    | some byte => (byte, w)
    | none =>
      let numeral := Numeral.read 0 argument
      let behind := if numeral.present then numeral.behind else argument
      let fits := numeral.value.natAbs < wordCount
      let value := if fits then (numeral.value % wordCount).toNat else wordCount - 1
      (value, warned w argument behind fits)

/-- The next argument as a fraction. -/
def fraction (w : Writing) : Fraction × Writing :=
  match next w with
  | (none, w) => (⟨false, .finite 0 0⟩, w)
  | (some argument, w) =>
    match quotedByte? argument with
    | some byte => (⟨false, .ofQuotient byte 1⟩, w)
    | none =>
      let reading := Fraction.read argument
      (reading.value, warned w argument reading.behind reading.fits)

/-- A measure, worked out. An argument counts as an integer of 32 bits. -/
def measured (w : Writing) : Measure → Int × Writing
  | .number n => (n, w)
  | .argument =>
    let (n, w) := integer w
    (Int.bmod n 0x100000000, w)

/-- The layout of a conversion. A precision behind a stray star has no meaning. -/
def layout (w : Writing) (c : Conversion) : Layout × Writing :=
  let (width, w) := measured w c.width
  let (precision, w) := match c.precision with
    | some precision =>
      let (n, w) := measured w precision
      (if n < 0 ∨ '.' ∈ c.stray.getD [] then none else some n.toNat, w)
    | none => (none, w)
  (⟨c.flags.contains '-' || width < 0, c.flags.contains '0', c.flags.contains '+',
    c.flags.contains ' ', c.flags.contains '#', width.natAbs, precision⟩, w)

/-! ## Writing -/

def put (w : Writing) (text : Text) : Writing := { w with output := text :: w.output }

/-- The text of a conversion is written, unless its measures do not fit. -/
def putWithin (w : Writing) (l : Layout) (c : Conversion) (text : Layout → Text) : Writing :=
  if ¬ l.fits then { w with ended := some (some "xvsnprintf failed") }
  else put w (match c.stray with
    | some stray => l.unread stray c.kind
    | none => text l)

/-- What a conversion writes. -/
def convert (w : Writing) (c : Conversion) : Writing :=
  let (l, w) := layout w c
  match c.kind with
  | 's' =>
    let (argument, w) := next w
    putWithin w l c (·.string (argument.getD []))
  | 'b' =>
    let (argument, w) := next w
    let (text, ends) := Escape.expand (argument.getD [])
    let w := putWithin w l c (·.string text)
    if ends ∧ w.ended.isNone then { w with ended := some none } else w
  | 'c' =>
    let (argument, w) := next w
    let byte := ((argument.getD []).head?).getD '\x00'
    putWithin w l c (·.pad [byte])
  | 'd' | 'i' =>
    let (n, w) := integer w
    putWithin w l c (·.signed n)
  | 'o' | 'u' | 'x' | 'X' =>
    let (n, w) := natural w
    putWithin w l c (·.unsigned c.kind n)
  | 'a' | 'A' | 'e' | 'E' | 'f' | 'F' | 'g' | 'G' =>
    let (f, w) := fraction w
    putWithin w l c (·.fraction c.kind f)
  | _ => { w with ended := some (some (c.written ++ ": invalid directive")) }

/-- What pieces write, up to the point where writing ends. -/
def writePieces (w : Writing) : List Piece → Writing
  | [] => w
  | piece :: rest =>
    if w.ended.isSome then w
    else match piece with
      | .byte c => writePieces (put w [c]) rest
      | .conversion c => writePieces (convert w c) rest
      | .unfinished => { w with ended := some (some "missing format character") }

/-- The format is used again as long as it takes arguments and some are left. -/
def repeatPieces (pieces : List Piece) : Nat → Writing → Writing
  | 0, w => w
  | fuel + 1, w =>
    let after := writePieces w pieces
    if after.ended.isSome ∨ after.arguments = [] ∨ after.arguments.length = w.arguments.length then
      after
    else repeatPieces pieces fuel after

/-- **Writing** arguments by a format. -/
def write (format : Text) (arguments : List Text) : Writing :=
  repeatPieces (pieces format) (arguments.length + 1) ⟨arguments, [], [], none⟩

end Format
end LineShell.Script
