/-
# LineShell.Text.Utf8 -- bytes and characters

Programs write bytes; files and directories measure names in bytes. Texts become bytes
by UTF-8. Bytes become a text by decoding that never fails: each maximal part that
cannot begin or continue a character stands as one replacement character U+FFFD, and
decoding goes on with the byte that broke the sequence.
-/

import LineShell.Text.Basic

namespace LineShell.Text

/-- The UTF-8 bytes of a text. -/
def toBytes (t : Text) : List UInt8 := t.flatMap String.utf8EncodeChar

/-- The number of UTF-8 bytes of a text. -/
def byteLength : Text → Nat
  | [] => 0
  | c :: rest => c.utf8Size + byteLength rest

theorem byteLength_append (s t : Text) : byteLength (s ++ t) = byteLength s + byteLength t := by
  induction s with
  | nil => simp [byteLength]
  | cons c rest ih => simp [byteLength, ih, Nat.add_assoc]

/-- The character that stands for malformed bytes. -/
def replacement : Char := '\ufffd'

/-- An unfinished character: the bits read so far, how many bytes are still to come,
and the bounds of the next one. -/
structure Partial where
  bits : Nat
  missing : Nat
  low : Nat
  high : Nat

/-- What a byte that begins a character does: it is a character of its own, it opens a
longer one, or (`none`) it can begin none. Only the shortest form of a character is
accepted, and no surrogate, which narrows the second byte after E0, ED, F0 and F4. -/
def leadByte (b : Nat) : Option (Char ⊕ Partial) :=
  if b < 0x80 then some (.inl (Char.ofNat b))
  else if b < 0xc2 then none
  else if b < 0xe0 then some (.inr ⟨b - 0xc0, 1, 0x80, 0xbf⟩)
  else if b = 0xe0 then some (.inr ⟨0, 2, 0xa0, 0xbf⟩)
  else if b = 0xed then some (.inr ⟨0xd, 2, 0x80, 0x9f⟩)
  else if b < 0xf0 then some (.inr ⟨b - 0xe0, 2, 0x80, 0xbf⟩)
  else if b = 0xf0 then some (.inr ⟨0, 3, 0x90, 0xbf⟩)
  else if b < 0xf4 then some (.inr ⟨b - 0xf0, 3, 0x80, 0xbf⟩)
  else if b = 0xf4 then some (.inr ⟨4, 3, 0x80, 0x8f⟩)
  else none

/-- The state of the decoder and the text given out after a byte outside a character. -/
def beginChar (b : Nat) : Text × Option Partial :=
  match leadByte b with
  | none => ([replacement], none)
  | some (.inl c) => ([c], none)
  | some (.inr p) => ([], some p)

/-- The same after a byte inside the unfinished character `p`. -/
def continueChar (p : Partial) (b : Nat) : Text × Option Partial :=
  if p.low ≤ b ∧ b ≤ p.high then
    let bits := p.bits * 64 + (b - 0x80)
    if p.missing ≤ 1 then ([Char.ofNat bits], none)
    else ([], some ⟨bits, p.missing - 1, 0x80, 0xbf⟩)
  else
    let (shown, next) := beginChar b
    (replacement :: shown, next)

/-- Decoding from a given state of the decoder. -/
def decodeFrom : Option Partial → List UInt8 → Text
  | none, [] => []
  | some _, [] => [replacement]
  | state, b :: rest =>
    let (shown, next) := match state with
      | none => beginChar b.toNat
      | some p => continueChar p b.toNat
    shown ++ decodeFrom next rest

/-- **Decoding** — the text of a sequence of bytes, malformed parts replaced. -/
def ofBytes (bytes : List UInt8) : Text := decodeFrom none bytes

/-- **Overlay** — what a file that holds `held` holds after `written` has been put over
its beginning. What lies beyond is kept, and so are the first `early` bytes: they were
put there after `written` had already got that far. -/
def overlay (early : Nat) (written held : Text) : Text :=
  if held = [] then written
  else
    let new := toBytes written
    let old := toBytes held
    ofBytes (old.take early ++ new.drop (min early old.length) ++ old.drop new.length)

@[simp] theorem overlay_nil (early : Nat) (written : Text) :
    overlay early written [] = written := rfl

end LineShell.Text
