/-
# LineShell.Proofs.Words.Meaning -- the words of a line are what its spellings mean

A line that is made of spellings is read as what they mean: one word for each spelling,
in order, and none for a spelling that denotes the empty text (`words_of_spells`). The
statement is about every line that `Spells` admits, so about every mixture of quoting
styles in a word and every number of spaces between and around the words.

The scanner reads a line from its end, and so `Spells` builds it from its end: a word with
the space behind it is put in front of a rest that is made of spellings itself. The one
step is `words_written_space`: up to that space the scanner takes up the meaning of the
word and is outside quotes again, so that the rest means what it means on its own.

`Spelling.laidOut` writes spellings down with given numbers of spaces. Every such line is
made of its spellings (`spells_laidOut`), and there are no others (`spells_iff_laidOut`).
-/

import LineShell.Words.Spelling

namespace LineShell

/-! ## One word at the front of a line -/

theorem flush_eq_filter (word : Text) (others : List Text) :
    flush word others = [word].filter (· ≠ []) ++ others := by
  by_cases h : word = []
  · simp [flush, h]
  · simp [flush, h]

/-- A spelling with a space behind it is one word, or none if it denotes the empty text. -/
theorem words_written_space (word : Spelling) (rest : Text) :
    words (word.written ++ ' ' :: rest) = [word.meaning].filter (· ≠ []) ++ words rest := by
  have hspace : scan .bare (' ' :: rest) = ([], words rest) := by
    simp [scan, words, Mode.breaks, Mode.next]
  rw [words, scan_spelling, hspace, List.append_nil]
  exact flush_eq_filter word.meaning (words rest)

/-- The same for the spelling that ends a line. -/
theorem words_written (word : Spelling) :
    words word.written = [word.meaning].filter (· ≠ []) := by
  have h := scan_spelling word []
  rw [List.append_nil] at h
  rw [words, h]
  simpa [scan, Mode.pending] using flush_eq_filter word.meaning []

/-! ## Lines with given numbers of spaces -/

namespace Spelling

/-- **Laid out** — spellings with `before` spaces in front of them all, one space between
two neighbours and, behind each, as many more as stand beside it. -/
def laidOut (before : Nat) : List (Spelling × Nat) → Text
  | [] => List.replicate before ' '
  | [(word, behind)] => List.replicate before ' ' ++ (word.written ++ List.replicate behind ' ')
  | (word, behind) :: next :: more =>
    List.replicate before ' ' ++ (word.written ++ ' ' :: laidOut behind (next :: more))

end Spelling

theorem Spells.replicate_append {spellings : List Spelling} {line : Text}
    (h : Spells spellings line) (n : Nat) :
    Spells spellings (List.replicate n ' ' ++ line) := by
  induction n with
  | zero => exact h
  | succ n ih => exact .space ih

theorem spells_replicate (n : Nat) : Spells [] (List.replicate n ' ') := by
  simpa using Spells.nil.replicate_append n

/-- Spellings that are laid out make up their line. -/
theorem spells_laidOut (before : Nat) (layout : List (Spelling × Nat))
    (h : ∀ entry ∈ layout, entry.1 ≠ []) :
    Spells (layout.map Prod.fst) (Spelling.laidOut before layout) := by
  induction layout generalizing before with
  | nil => exact spells_replicate before
  | cons entry more ih =>
    obtain ⟨word, behind⟩ := entry
    have hword : word ≠ [] := h (word, behind) List.mem_cons_self
    cases more with
    | nil =>
      refine Spells.replicate_append ?_ before
      cases behind with
      | zero => simpa using Spells.last hword
      | succ n => exact .word hword (spells_replicate n)
    | cons next others =>
      have hrest := ih behind fun e he => h e (List.mem_cons_of_mem _ he)
      exact Spells.replicate_append (.word hword hrest) before

/-- The lines that are made of spellings are those on which the spellings are laid out. -/
theorem spells_iff_laidOut {spellings : List Spelling} {line : Text} :
    Spells spellings line ↔
      ∃ before layout, (∀ entry ∈ layout, entry.1 ≠ []) ∧
        layout.map Prod.fst = spellings ∧ Spelling.laidOut before layout = line := by
  constructor
  · intro h
    induction h with
    | nil => exact ⟨0, [], by simp, rfl, rfl⟩
    | space _ ih =>
      obtain ⟨before, layout, hne, hmap, hline⟩ := ih
      refine ⟨before + 1, layout, hne, hmap, ?_⟩
      rw [← hline]
      cases layout with
      | nil => rfl
      | cons entry more => cases more <;> rfl
    | @last word hword =>
      refine ⟨0, [(word, 0)], by simpa using hword, rfl, ?_⟩
      simp [Spelling.laidOut]
    | @word word words line hword _ ih =>
      obtain ⟨before, layout, hne, hmap, hline⟩ := ih
      -- the spaces in front of the rest are those behind the word, less the one between
      cases layout with
      | nil =>
        refine ⟨0, [(word, before + 1)], by simpa using hword, by simpa using hmap, ?_⟩
        rw [← hline]
        rfl
      | cons entry more =>
        refine ⟨0, (word, before) :: entry :: more, ?_, by rw [← hmap]; rfl, ?_⟩
        · intro e he
          rcases List.mem_cons.mp he with rfl | he
          · exact hword
          · exact hne e he
        · rw [← hline]
          rfl
  · rintro ⟨before, layout, hne, rfl, rfl⟩
    exact spells_laidOut before layout hne

/-! ## All words of a line -/

/-- **The meaning of a line** — the words of a line made of spellings are what the
spellings mean, in order, without the empty texts. -/
theorem words_of_spells {spellings : List Spelling} {line : Text}
    (h : Spells spellings line) :
    words line = (spellings.map Spelling.meaning).filter (· ≠ []) := by
  induction h with
  | nil => rfl
  | space _ ih => rw [words_space_cons, ih]
  | last _ => exact words_written _
  | word _ _ ih =>
    rw [words_written_space, ih, List.map_cons, ← List.filter_append, List.singleton_append]

/-- Three spellings in all styles of quoting, of which the second denotes the empty text. -/
theorem words_of_spells_mixed :
    let spellings : List Spelling :=
      [[.bare 'a' (by decide), .single ['b', ' '] (by decide), .double [.escape '$', .escape 'c']],
        [.single [] (by decide), .double []], [.escaped ' ']]
    let line : Text := "  a\x27b \x27\x22\\$\\c\x22 \x27\x27\x22\x22   \\  "
    Spells spellings line ∧ words line = [['a', 'b', ' ', '$', '\\', 'c'], [' ']] := by
  intro spellings line
  have h : Spells spellings line :=
    spells_iff_laidOut.mpr ⟨2, spellings.zip [0, 2, 1], by decide, rfl, by decide⟩
  exact ⟨h, words_of_spells h⟩

end LineShell
