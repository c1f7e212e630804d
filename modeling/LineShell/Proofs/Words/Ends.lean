/-
# LineShell.Proofs.Words.Ends -- spaces at the ends of a command

Spaces around a command mean nothing to the scanner, with one exception. A backslash outside
quotes at the end of the command makes the space behind it stand for itself; without the space
the backslash does that. So a command from which spaces have been taken away has the same words
as before, unless it ends in such a backslash, and then it differs in the last character of the
last word (`keepsWords_spaces`).

The scanner reads a line from its end, and a text at the front of it turns what it has read into
a longer word or puts it behind other words, whatever it is (`exists_scan_append`).
-/

import LineShell.Proofs.Words.Quotation

namespace LineShell

/-! ## What the scanner reads behind a text -/

/-- Texts that come to the same behind another one make lines that come to the same. -/
theorem scan_append_congr {m : Mode} (t : Text) {u v : Text}
    (h : scan (m.after t) u = scan (m.after t) v) : scan m (t ++ u) = scan m (t ++ v) := by
  induction t generalizing m with
  | nil => exact h
  | cons c rest ih =>
    rw [List.cons_append, List.cons_append, scan, scan, ih h]

theorem flush_append (word : Text) (others more : List Text) :
    flush word (others ++ more) = flush word others ++ more := by
  by_cases h : word = [] <;> simp [flush, h]

/-- A text in front of something that belongs to one word lengthens that word, or it is the last
one of several. -/
theorem exists_scan_append (m : Mode) (t : Text) :
    (∃ first, ∀ u w, scan (m.after t) u = (w, []) → scan m (t ++ u) = (first ++ w, [])) ∨
    ∃ first front last, ∀ u w, scan (m.after t) u = (w, []) → w ≠ [] →
      scan m (t ++ u) = (first, front ++ [last ++ w]) := by
  induction t generalizing m with
  | nil => exact .inl ⟨[], fun u w h => h⟩
  | cons c rest ih =>
    rcases hbreaks : m.breaks c with _ | _
    · -- the character belongs to the first word
      rcases ih (m.next c) with ⟨first, hone⟩ | ⟨first, front, last, hmore⟩
      · refine .inl ⟨m.kept c ++ first, fun u w h => ?_⟩
        simp [scan, hone u w h, hbreaks]
      · refine .inr ⟨m.kept c ++ first, front, last, fun u w h hw => ?_⟩
        simp [scan, hmore u w h hw, hbreaks]
    · -- the character ends a word that is empty so far
      rcases ih (m.next c) with ⟨first, hone⟩ | ⟨first, front, last, hmore⟩
      · refine .inr ⟨[], [], first, fun u w h hw => ?_⟩
        simp [scan, hone u w h, hbreaks, flush, hw]
      · refine .inr ⟨[], flush first front, last, fun u w h hw => ?_⟩
        simp [scan, hmore u w h hw, hbreaks, flush_append]

/-- What belongs to one word ends the last word of the line that it ends. -/
theorem exists_words_append (t : Text) : ∃ front last, ∀ u w,
    scan (Mode.bare.after t) u = (w, []) → w ≠ [] → words (t ++ u) = front ++ [last ++ w] := by
  rcases exists_scan_append .bare t with ⟨first, hone⟩ | ⟨first, front, last, hmore⟩
  · refine ⟨[], first, fun u w h hw => ?_⟩
    simp [words, hone u w h, flush, hw]
  · refine ⟨flush first front, last, fun u w h hw => ?_⟩
    rw [words, hmore u w h hw, flush_append]

/-! ## Spaces -/

theorem scan_bare_spaces (n : Nat) : scan .bare (List.replicate n ' ') = ([], []) := by
  induction n with
  | zero => rfl
  | succ n ih => simp [List.replicate_succ, scan, Mode.next, Mode.breaks, ih]

/-- The first space behind a backslash stands for itself. -/
theorem scan_escaped_spaces (n : Nat) :
    scan .escaped (List.replicate (n + 1) ' ') = ([' '], []) := by
  simp [List.replicate_succ, scan, Mode.next, Mode.breaks, Mode.kept, scan_bare_spaces]

theorem words_spaces_append (n : Nat) (t : Text) : words (List.replicate n ' ' ++ t) = words t := by
  induction n with
  | zero => rfl
  | succ n ih => rw [List.replicate_succ, List.cons_append, words_space_cons, ih]

/-- **Keeps words** — a command from which spaces have been taken away has the words of the whole
text, unless it ends in a backslash that waits for its character. Then the space behind the
backslash is lost, and the last word ends in the backslash where it ended in that space. -/
structure KeepsWords (command whole : Text) : Prop where
  same : Mode.bare.after command ≠ .escaped → words command = words whole
  lost : Mode.bare.after command = .escaped → ∃ front last,
    words command = front ++ [last ++ ['\\']] ∧ words whole = front ++ [last ++ [' ']]

/-- A command keeps its words without the spaces around it, if no quotation is open at its end and
a backslash there has a space behind it. -/
theorem keepsWords_spaces {command : Text} (hquoted : (Mode.bare.after command).isQuoted = false)
    (before : Nat) {behind : Nat} (hbehind : Mode.bare.after command = .escaped → behind ≠ 0) :
    KeepsWords command
      (List.replicate before ' ' ++ (command ++ List.replicate behind ' ')) where
  same hescaped := by
    have hbare : Mode.bare.after command = .bare := by
      cases hmode : Mode.bare.after command with
      | bare => rfl
      | escaped => exact absurd hmode hescaped
      | single | double | doubleEscaped =>
        rw [hmode] at hquoted
        exact absurd hquoted (by decide)
    have hscan : scan .bare (command ++ List.replicate behind ' ') = scan .bare (command ++ []) :=
      scan_append_congr command (by rw [hbare, scan_bare_spaces]; rfl)
    rw [words_spaces_append, words, words, hscan, List.append_nil]
  lost hescaped := by
    obtain ⟨n, rfl⟩ := Nat.exists_eq_succ_of_ne_zero (hbehind hescaped)
    obtain ⟨front, last, hwords⟩ := exists_words_append command
    rw [hescaped] at hwords
    refine ⟨front, last, ?_, ?_⟩
    · have hend := hwords [] ['\\'] rfl (List.cons_ne_nil _ _)
      rwa [List.append_nil] at hend
    · rw [words_spaces_append]
      exact hwords _ [' '] (scan_escaped_spaces n) (List.cons_ne_nil _ _)

end LineShell
