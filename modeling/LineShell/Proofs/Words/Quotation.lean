/-
# LineShell.Proofs.Words.Quotation -- between quotation marks and outside

A scanner that is between quotation marks comes out of them at a mark only, and one that is
outside gets between them at a mark only. White space holds no mark, and as the character that a
backslash waits for it stands for itself. So it leaves the scanner on the side where it is, with
nothing to wait for (`after_blank`).
-/

import LineShell.Words
import LineShell.Text.Classes

namespace LineShell

/-- A quotation mark. -/
def isMark (c : Char) : Bool := c = '\x27' || c = '\x22'

theorem not_isBlank_of_isMark {c : Char} (h : isMark c = true) : Text.isBlank c = false := by
  simp only [isMark, Bool.or_eq_true, decide_eq_true_eq] at h
  rcases h with rfl | rfl <;> decide

namespace Mode

/-- The scanner is between quotation marks. -/
def isQuoted : Mode → Bool
  | bare | escaped => false
  | single | double | doubleEscaped => true

/-- The mode on the same side of the quotation marks in which no backslash waits. -/
def settled : Mode → Mode
  | bare | escaped => bare
  | single => single
  | double | doubleEscaped => double

@[simp] theorem isQuoted_settled (m : Mode) : m.settled.isQuoted = m.isQuoted := by
  cases m <;> rfl

@[simp] theorem settled_settled (m : Mode) : m.settled.settled = m.settled := by
  cases m <;> rfl

/-- Only a quotation mark ends a quotation. -/
theorem isQuoted_after {m : Mode} {t : Text} (hm : m.isQuoted = true)
    (ht : ∀ c ∈ t, isMark c = false) : (m.after t).isQuoted = true := by
  induction t generalizing m with
  | nil => exact hm
  | cons c rest ih =>
    have hc := ht c List.mem_cons_self
    simp only [isMark, Bool.or_eq_false_iff, decide_eq_false_iff_not] at hc
    have hnext : (m.next c).isQuoted = true := by
      cases m with
      | bare | escaped => exact absurd hm (by decide)
      | single => simp [next, hc.1, isQuoted]
      | double => by_cases hbackslash : c = '\\' <;> simp [next, hc.2, hbackslash, isQuoted]
      | doubleEscaped => rfl
    exact ih hnext fun d hd => ht d (List.mem_cons_of_mem c hd)

/-! ## White space -/

theorem next_blank {blank : Char} (h : Text.isBlank blank = true) (m : Mode) :
    m.next blank = m.settled := by
  have hne : ∀ c, Text.isBlank c = false → blank ≠ c := by
    rintro c hc rfl
    rw [hc] at h
    exact absurd h (by simp)
  have hsingle := hne '\x27' (by decide)
  have hdouble := hne '\x22' (by decide)
  have hbackslash := hne '\\' (by decide)
  cases m <;> simp [next, settled, hsingle, hdouble, hbackslash]

/-- White space neither opens a quotation nor ends one, and ends an escape. -/
theorem after_blank {blanks : Text} (h : Text.allBlank blanks = true) (hne : blanks ≠ [])
    (m : Mode) : m.after blanks = m.settled := by
  induction blanks generalizing m with
  | nil => exact absurd rfl hne
  | cons blank rest ih =>
    simp only [Text.allBlank, List.all_cons, Bool.and_eq_true] at h
    rw [after_cons, next_blank h.1]
    by_cases hrest : rest = []
    · rw [hrest, after_nil]
    · rw [ih h.2 hrest, settled_settled]

theorem isQuoted_after_blank {blanks : Text} (h : Text.allBlank blanks = true) (m : Mode) :
    (m.after blanks).isQuoted = m.isQuoted := by
  by_cases hne : blanks = []
  · rw [hne, after_nil]
  · rw [after_blank h hne, isQuoted_settled]

/-- White space at the front of a line does not matter to what the scanner is in behind it. -/
theorem bare_after_blank_append {blanks : Text} (h : Text.allBlank blanks = true) (t : Text) :
    bare.after (blanks ++ t) = bare.after t := by
  rw [after_append]
  by_cases hne : blanks = []
  · rw [hne, after_nil]
  · rw [after_blank h hne, settled]

end Mode

end LineShell
