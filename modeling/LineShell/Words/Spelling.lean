/-
# LineShell.Words.Spelling -- how a word can be written

A word can be written in many ways. A spelling is a sequence of segments: a bare
character, a character behind a backslash, a text between single quotation marks, or
items between double quotation marks. `written` gives the characters of a spelling and
`meaning` the text that it denotes. `Spells` says which lines are made of which
spellings: they are separated by spaces, and spaces may stand at both ends.

The scanner agrees with the spellings (`scan_spelling`): it reads a spelling outside
quotes, takes up its meaning, and is outside quotes again. Every text has a spelling that
protects each of its characters (`meaning_protecting`).

A line may leave a quotation open or end in a backslash. `repaired` adds what is missing.
-/

import LineShell.Words

namespace LineShell

/-! ## Segments -/

/-- **Item** — a piece of what stands between double quotation marks: a character, or a
character behind a backslash. -/
inductive Item
  | plain (c : Char) (ordinary : c ≠ '\x22' ∧ c ≠ '\\')
  | escape (c : Char)
  deriving DecidableEq

namespace Item

def written : Item → Text
  | plain c _ => [c]
  | escape c => ['\\', c]

/-- A backslash disappears only before an escapable character. -/
def meaning : Item → Text
  | plain c _ => [c]
  | escape c => if c ∈ escapable then [c] else ['\\', c]

end Item

/-- **Segment** — a piece of a word in one style of quoting. -/
inductive Segment
  | bare (c : Char) (ordinary : c ≠ ' ' ∧ c ≠ '\x27' ∧ c ≠ '\x22' ∧ c ≠ '\\')
  | escaped (c : Char)
  | single (text : Text) (closed : '\x27' ∉ text)
  | double (items : List Item)
  deriving DecidableEq

namespace Segment

def written : Segment → Text
  | bare c _ => [c]
  | escaped c => ['\\', c]
  | single text _ => '\x27' :: (text ++ ['\x27'])
  | double items => '\x22' :: (items.flatMap Item.written ++ ['\x22'])

def meaning : Segment → Text
  | bare c _ => [c]
  | escaped c => [c]
  | single text _ => text
  | double items => items.flatMap Item.meaning

end Segment

/-! ## Spellings -/

/-- **Spelling** — the segments of one word, in order. -/
abbrev Spelling := List Segment

namespace Spelling

def written (s : Spelling) : Text := s.flatMap Segment.written

def meaning (s : Spelling) : Text := s.flatMap Segment.meaning

/-- The spelling of a text that puts each character between single quotation marks, and a
single quotation mark itself behind a backslash. -/
def protecting (t : Text) : Spelling :=
  t.map fun c => if h : c = '\x27' then .escaped c else .single [c] (by simpa [eq_comm] using h)

theorem meaning_protecting (t : Text) : (protecting t).meaning = t := by
  induction t with
  | nil => rfl
  | cons c rest ih =>
    have hc : (protecting (c :: rest)).meaning = c :: (protecting rest).meaning := by
      by_cases h : c = '\x27' <;> simp [protecting, meaning, Segment.meaning, h]
    rw [hc, ih]

end Spelling

/-- **Spells** — the line is made of the given spellings, none of them without segments,
in order. -/
inductive Spells : List Spelling → Text → Prop
  | nil : Spells [] []
  | space {words : List Spelling} {line : Text} : Spells words line → Spells words (' ' :: line)
  | last {word : Spelling} : word ≠ [] → Spells [word] word.written
  | word {word : Spelling} {words : List Spelling} {line : Text} :
      word ≠ [] → Spells words line → Spells (word :: words) (word.written ++ ' ' :: line)

/-! ## What the scanner makes of a spelling -/

theorem scan_item (item : Item) (t : Text) :
    scan .double (item.written ++ t)
      = (item.meaning ++ (scan .double t).1, (scan .double t).2) := by
  cases item with
  | plain c h => simp [Item.written, Item.meaning, scan, Mode.next, Mode.kept, Mode.breaks, h]
  | escape c =>
    by_cases h : c ∈ escapable <;>
      simp [Item.written, Item.meaning, scan, Mode.next, Mode.kept, Mode.breaks, h]

theorem scan_items (items : List Item) (t : Text) :
    scan .double (items.flatMap Item.written ++ t)
      = (items.flatMap Item.meaning ++ (scan .double t).1, (scan .double t).2) := by
  induction items with
  | nil => simp
  | cons item rest ih => simp [scan_item, ih]

theorem scan_single {text : Text} (h : '\x27' ∉ text) (t : Text) :
    scan .single (text ++ t) = (text ++ (scan .single t).1, (scan .single t).2) := by
  induction text with
  | nil => simp
  | cons c rest ih =>
    have hc : c ≠ '\x27' := fun e => h (by simp [e])
    have := ih fun m => h (List.mem_cons_of_mem _ m)
    simp [scan, Mode.next, Mode.kept, Mode.breaks, hc, this]

theorem scan_segment (segment : Segment) (t : Text) :
    scan .bare (segment.written ++ t)
      = (segment.meaning ++ (scan .bare t).1, (scan .bare t).2) := by
  cases segment with
  | bare c h =>
    simp [Segment.written, Segment.meaning, scan, Mode.next, Mode.kept, Mode.breaks, h]
  | escaped c => simp [Segment.written, Segment.meaning, scan, Mode.next, Mode.kept, Mode.breaks]
  | single text h =>
    have := scan_single h ('\x27' :: t)
    simp [Segment.written, Segment.meaning, scan, Mode.next, Mode.kept, Mode.breaks] at this ⊢
    simp [this]
  | double items =>
    have := scan_items items ('\x22' :: t)
    simp [Segment.written, Segment.meaning, scan, Mode.next, Mode.kept, Mode.breaks] at this ⊢
    simp [this]

/-- The scanner takes up the meaning of a spelling and is outside quotes behind it. -/
theorem scan_spelling (word : Spelling) (t : Text) :
    scan .bare (word.written ++ t) = (word.meaning ++ (scan .bare t).1, (scan .bare t).2) := by
  induction word with
  | nil => simp [Spelling.written, Spelling.meaning]
  | cons segment rest ih =>
    simp only [Spelling.written, Spelling.meaning] at ih ⊢
    simp [scan_segment, ih]

/-! ## Lines that break off -/

/-- What a line lacks that ends in a given mode: the character behind a backslash, for
which the backslash itself stands in, and the closing mark of a quotation. -/
def Mode.closing : Mode → Text
  | bare => []
  | escaped => ['\\']
  | single => ['\x27']
  | double => ['\x22']
  | doubleEscaped => ['\\', '\x22']

/-- **Repair** — the line with what it lacks at its end. -/
def repaired (line : Text) : Text := line ++ (Mode.bare.after line).closing

/-- What a line lacks brings the scanner out of all quotes. -/
theorem after_closing (m : Mode) : m.after m.closing = .bare := by
  cases m <;> simp [Mode.closing, Mode.after, Mode.next]

theorem after_repaired (line : Text) : Mode.bare.after (repaired line) = .bare := by
  rw [repaired, Mode.after_append, after_closing]

end LineShell
