/-
# LineShell.Words -- the words of a command line

A command line is read from left to right by a scanner with five modes: outside
quotes, after a backslash outside quotes, inside single quotes, inside double quotes,
and after a backslash inside double quotes. Outside quotes a space ends the word, a
quotation mark opens a quotation and a backslash makes the next character stand for
itself. Inside single quotes every character but the closing mark stands for itself.
Inside double quotes a backslash is dropped only before the characters of `escapable`;
before any other it is kept.

No line is refused. An open quotation ends with the line, and a backslash that is the
last character stands for itself. A word that denotes the empty text is no word:
quoting nothing does not make an argument.

The scanner is a transducer. `Mode.next` says where a character leads and `Mode.kept`
what it contributes; `scan` reads a line from its end, so that what a line means is
built from what the rest of it means, with no accumulator.
-/

import LineShell.Text.Basic

namespace LineShell

/-! ## The scanner -/

/-- **Mode** — the quoting context that the scanner is in. -/
inductive Mode
  | bare
  | escaped
  | single
  | double
  | doubleEscaped
  deriving DecidableEq, Repr

/-- The characters before which a backslash inside double quotes is dropped: the
double quotation mark, the backslash, the dollar sign, the backquote, the line feed. -/
def escapable : List Char := ['\x22', '\\', '$', '\x60', '\n']

namespace Mode

/-- The mode after reading `c`. -/
def next (m : Mode) (c : Char) : Mode :=
  match m with
  | bare =>
    if c = '\\' then escaped
    else if c = '\x27' then single
    else if c = '\x22' then double
    else bare
  | escaped => bare
  | single => if c = '\x27' then bare else single
  | double =>
    if c = '\\' then doubleEscaped
    else if c = '\x22' then bare
    else double
  | doubleEscaped => double

/-- What reading `c` adds to the current word. -/
def kept (m : Mode) (c : Char) : Text :=
  match m with
  | bare => if c = '\\' ∨ c = '\x27' ∨ c = '\x22' then [] else [c]
  | escaped => [c]
  | single => if c = '\x27' then [] else [c]
  | double => if c = '\\' ∨ c = '\x22' then [] else [c]
  | doubleEscaped => if c ∈ escapable then [c] else ['\\', c]

/-- The character ends the current word. -/
def breaks (m : Mode) (c : Char) : Bool := m = bare && c = ' '

/-- What the end of the line adds to the current word: a backslash that waits for its
character stands for itself. -/
def pending : Mode → Text
  | escaped | doubleEscaped => ['\\']
  | _ => []

/-- The mode after reading a whole text. -/
def after (m : Mode) (t : Text) : Mode := t.foldl next m

@[simp] theorem after_nil (m : Mode) : m.after [] = m := rfl

@[simp] theorem after_cons (m : Mode) (c : Char) (t : Text) :
    m.after (c :: t) = (m.next c).after t := rfl

theorem after_append (m : Mode) (s t : Text) : m.after (s ++ t) = (m.after s).after t := by
  simp [after]

end Mode

/-! ## Words -/

/-- The words from here on: the current word if it is not empty, then the others. -/
def flush (word : Text) (others : List Text) : List Text :=
  if word = [] then others else word :: others

@[simp] theorem flush_nil (others : List Text) : flush [] others = others := rfl

@[simp] theorem flush_cons (c : Char) (word : Text) (others : List Text) :
    flush (c :: word) others = (c :: word) :: others := rfl

/-- What a rest of the line means in mode `m`: the rest of the current word, and the
words after it. -/
def scan (m : Mode) : Text → Text × List Text
  | [] => (m.pending, [])
  | c :: rest =>
    let (word, others) := scan (m.next c) rest
    if m.breaks c then ([], flush word others) else (m.kept c ++ word, others)

/-- **Words** — the words that a command line is made of, quoting removed. -/
def words (line : Text) : List Text :=
  flush (scan .bare line).1 (scan .bare line).2

@[simp] theorem words_nil : words [] = [] := rfl

/-- Spaces at the front of a line mean nothing. -/
theorem words_space_cons (t : Text) : words (' ' :: t) = words t := by
  simp [words, scan, Mode.breaks, Mode.next]

theorem Mode.mem_kept {m : Mode} {c d : Char} (h : d ∈ m.kept c) : d = c ∨ d = '\\' := by
  cases m with
  | bare | single | double =>
    simp only [kept] at h
    split at h
    · simp at h
    · exact .inl (List.mem_singleton.1 h)
  | escaped => exact .inl (List.mem_singleton.1 h)
  | doubleEscaped =>
    simp only [kept] at h
    split at h
    · exact .inl (List.mem_singleton.1 h)
    · rcases List.mem_cons.1 h with h | h
      · exact .inr h
      · exact .inl (List.mem_singleton.1 h)

theorem mem_flush {word w : Text} {others : List Text} (h : w ∈ flush word others) :
    w = word ∨ w ∈ others := by
  unfold flush at h
  split at h
  · exact .inr h
  · exact List.mem_cons.1 h

theorem mem_of_mem_scan {m : Mode} {t w : Text} {d : Char}
    (h : w = (scan m t).1 ∨ w ∈ (scan m t).2) (hd : d ∈ w) : d ∈ t ∨ d = '\\' := by
  induction t generalizing m w with
  | nil =>
    rcases h with rfl | h
    · cases m <;> simp_all [scan, Mode.pending]
    · simp [scan] at h
  | cons c rest ih =>
    have hrest : (w = (scan (m.next c) rest).1 ∨ w ∈ (scan (m.next c) rest).2) →
        d ∈ c :: rest ∨ d = '\\' := fun h => (ih h hd).imp_left (List.mem_cons_of_mem c)
    simp only [scan] at h
    split at h
    · rcases h with rfl | h
      · simp at hd
      · exact hrest (mem_flush h)
    · rcases h with rfl | h
      · rcases List.mem_append.1 hd with hd | hd
        · rcases Mode.mem_kept hd with rfl | hd
          · exact .inl List.mem_cons_self
          · exact .inr hd
        · exact (ih (.inl rfl) hd).imp_left (List.mem_cons_of_mem c)
      · exact hrest (.inr h)

/-- The words of a line are made of its characters; a backslash may stand for itself. -/
theorem mem_of_mem_words {t w : Text} {d : Char} (h : w ∈ words t) (hd : d ∈ w) :
    d ∈ t ∨ d = '\\' :=
  mem_of_mem_scan (mem_flush h) hd

end LineShell
