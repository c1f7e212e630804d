/-
# LineShell.Text.Quoted -- texts as they are shown in diagnostics

A quoted text stands between two quotation marks: single ones, or double ones when the
text holds a single mark and no double one. A backslash, the quotation mark in use,
and every character that is not printable are written as escapes; the tab, the line
feed and the carriage return have short ones, the others give their code point in
lower-case hexadecimal digits.
-/

import LineShell.Text.Printable

namespace LineShell.Text

/-- The hexadecimal notation of `n` with exactly `width` digits. -/
def hex : Nat → Nat → Text
  | 0, _ => []
  | width + 1, n => hex width (n / 16) ++ [Nat.digitChar (n % 16)]

/-- The quotation mark put around a text. -/
def quotationMark (t : Text) : Char :=
  if t.contains '\x27' && !t.contains '\x22' then '\x22' else '\x27'

/-- The escape of a character that is not printable. -/
def codePointEscape (c : Char) : Text :=
  if c.toNat < 0x100 then "\\x" ++ hex 2 c.toNat
  else if c.toNat < 0x10000 then "\\u" ++ hex 4 c.toNat
  else "\\U" ++ hex 8 c.toNat

/-- One character inside quotation marks `mark`. -/
def quotedChar (mark c : Char) : Text :=
  if c = mark ∨ c = '\\' then ['\\', c]
  else if c = '\t' then "\\t"
  else if c = '\n' then "\\n"
  else if c = '\r' then "\\r"
  else if isPrintable c then [c]
  else codePointEscape c

/-- **Quoted** — the text between quotation marks, with escapes. -/
def quoted (t : Text) : Text :=
  let mark := quotationMark t
  mark :: t.flatMap (quotedChar mark) ++ [mark]

/-- An absent text is shown as the word `None`. -/
def quotedOption : Option Text → Text
  | none => "None"
  | some t => quoted t

/-- A list of texts, quoted, between square brackets. -/
def quotedList (ts : List Text) : Text :=
  "[" ++ ", ".toList.intercalate (ts.map quoted) ++ "]"

theorem quotationMark_mem (t : Text) : quotationMark t = '\x27' ∨ quotationMark t = '\x22' := by
  unfold quotationMark
  split <;> simp

end LineShell.Text
