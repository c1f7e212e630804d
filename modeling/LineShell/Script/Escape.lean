/-
# LineShell.Script.Escape -- escapes in what is written

Text that is written may hold escapes, which begin with a backslash: a letter for a
control byte, or up to three octal digits for the byte of that number. In arguments an
octal escape may have an extra zero in front, and one escape ends all output. A backslash
before anything else stands for itself.
-/

import LineShell.Script.Bytes

namespace LineShell.Script.Escape

/-- The byte of a one-letter escape. -/
def letter? (c : Char) : Option Char :=
  match c with
  | '\\' => some '\\'
  | 'a' => some '\x07'
  | 'b' => some '\x08'
  | 'e' => some '\x1b'
  | 'f' => some '\x0c'
  | 'n' => some '\n'
  | 'r' => some '\r'
  | 't' => some '\t'
  | 'v' => some '\x0b'
  | _ => none

/-- The byte that up to three octal digits in front denote, and what is behind them. -/
def octal (text : Text) : Char × Text :=
  let digits := (text.take 3).takeWhile isOctalDigit
  (Char.ofNat (numberIn 8 digits % 256), text.drop digits.length)

/-- The byte of an escape whose backslash stands in front of the text, and what is behind
the escape. -/
def one : Text → Char × Text
  | [] => ('\\', [])
  | c :: rest =>
    match letter? c with
    | some byte => (byte, rest)
    | none => if isOctalDigit c then octal (c :: rest) else ('\\', c :: rest)

/-- What an argument with escapes stands for, and whether the escape that ends all output
was met. The fuel is the length of the argument. -/
def expandWithin : Nat → Text → Text × Bool
  | 0, _ => ([], false)
  | _ + 1, [] => ([], false)
  | fuel + 1, '\\' :: rest =>
    match rest with
    | 'c' :: _ => ([], true)
    | _ =>
      let inside := match rest with
        | '0' :: digit :: _ => if isOctalDigit digit then rest.drop 1 else rest
        | _ => rest
      let (byte, behind) := one inside
      let (more, ends) := expandWithin fuel behind
      (byte :: more, ends)
  | fuel + 1, c :: rest =>
    let (more, ends) := expandWithin fuel rest
    (c :: more, ends)

/-- **Expanding** the escapes of an argument. -/
def expand (text : Text) : Text × Bool := expandWithin text.length text

/-- **Echo** — what is written for arguments that are to be shown: the arguments with
spaces between them, and a line feed unless the first one asks for none or output was
ended. -/
def echo (arguments : List Text) : Text :=
  let (bare, shown) := match arguments with
    | ['-', 'n'] :: rest => (true, rest)
    | _ => (false, arguments)
  let (text, ends) := expand ([' '].intercalate shown)
  if bare ∨ ends then text else text ++ ['\n']

end LineShell.Script.Escape
