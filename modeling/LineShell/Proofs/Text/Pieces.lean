/-
# LineShell.Proofs.Text.Pieces -- texts that are cut and put together

Cutting a text at a separator and putting pieces together with it undo each other: the pieces
hold the characters of the text but for the separators, and pieces that hold none are found
again (`pieces_intercalate`). There is one piece more than there are separators
(`length_pieces`).

The lines of a text are its pieces between line feeds. A last piece that is empty is no line
(`pieces_eq_lines_append`), so that there are as many lines as line feeds, and one more if the
text ends in an unended line.
-/

import LineShell.Text.Basic

namespace LineShell
namespace Text

variable {sep c : Char} {names : List Text}

/-! ## Characters -/

theorem mem_intercalate {name : Text} (hname : name ∈ names) (hc : c ∈ name) :
    c ∈ [sep].intercalate names := by
  induction names with
  | nil => exact absurd hname (by simp)
  | cons first others ih =>
    cases others with
    | nil => simpa [List.mem_singleton.mp hname] using hc
    | cons second more =>
      rw [List.intercalate_cons_cons, List.append_assoc]
      rcases List.mem_cons.mp hname with rfl | hname
      · exact List.mem_append_left _ hc
      · exact List.mem_append_right _ (List.mem_append_right _ (ih hname))

theorem exists_mem_of_mem_intercalate (h : c ∈ [sep].intercalate names) (hc : c ≠ sep) :
    ∃ name ∈ names, c ∈ name := by
  induction names with
  | nil => exact absurd h (by simp)
  | cons first others ih =>
    cases others with
    | nil => exact ⟨first, List.mem_cons_self, by simpa using h⟩
    | cons second more =>
      rw [List.intercalate_cons_cons, List.append_assoc] at h
      rcases List.mem_append.mp h with h | h
      · exact ⟨first, List.mem_cons_self, h⟩
      · obtain ⟨name, hname, hmem⟩ := ih ((List.mem_append.mp h).resolve_left (by simp [hc]))
        exact ⟨name, List.mem_cons_of_mem first hname, hmem⟩

/-- A piece of a text is made of characters of the text. -/
theorem mem_of_mem_pieces {t piece : Text} (h : piece ∈ pieces sep t) (hc : c ∈ piece) :
    c ∈ t := by
  rw [← intercalate_pieces sep t]
  exact mem_intercalate h hc

/-- The pieces of a text do not hold the separator. -/
theorem not_mem_of_mem_pieces {t piece : Text} (h : piece ∈ pieces sep t) :
    sep ∉ piece := by
  induction t generalizing piece with
  | nil =>
    simp only [pieces, List.mem_singleton] at h
    simp [h]
  | cons c rest ih =>
    unfold pieces at h
    split at h
    · rcases List.mem_cons.mp h with rfl | h
      · simp
      · exact ih h
    · rename_i hne
      split at h
      · rw [List.mem_singleton] at h
        subst h
        simpa using fun e => hne e.symm
      · rename_i first others hpieces
        rw [hpieces] at ih
        rcases List.mem_cons.mp h with rfl | h
        · rw [List.mem_cons, not_or]
          exact ⟨fun e => hne e.symm, ih List.mem_cons_self⟩
        · exact ih (List.mem_cons_of_mem _ h)

/-! ## Cutting -/

/-- A text is cut at a separator between two texts as each of them is. -/
theorem pieces_append_sep (first second : Text) :
    pieces sep (first ++ sep :: second) = pieces sep first ++ pieces sep second := by
  induction first with
  | nil => exact pieces_cons_sep sep second
  | cons c rest ih =>
    by_cases hc : c = sep
    · rw [hc, List.cons_append, pieces_cons_sep, pieces_cons_sep, ih]
      rfl
    · obtain ⟨piece, others, hpieces⟩ := List.exists_cons_of_ne_nil (pieces_ne_nil sep rest)
      rw [hpieces] at ih
      simp only [List.cons_append, pieces, if_neg hc, ih, hpieces]

/-- A text without separators is one piece. -/
theorem pieces_of_not_mem {t : Text} (h : sep ∉ t) : pieces sep t = [t] := by
  induction t with
  | nil => rfl
  | cons c rest ih =>
    rw [List.mem_cons, not_or] at h
    simp only [pieces, if_neg (Ne.symm h.1), ih h.2]

/-- Texts that are put together with separators can be put together in two parts. -/
theorem intercalate_append {first second : List Text} (hfirst : first ≠ [])
    (hsecond : second ≠ []) :
    [sep].intercalate (first ++ second) =
      [sep].intercalate first ++ sep :: [sep].intercalate second := by
  induction first with
  | nil => exact absurd rfl hfirst
  | cons piece others ih =>
    cases others with
    | nil =>
      obtain ⟨next, more, rfl⟩ := List.exists_cons_of_ne_nil hsecond
      simp [List.intercalate_cons_cons]
    | cons next more =>
      have hrest := ih (List.cons_ne_nil _ _)
      rw [List.cons_append, List.cons_append, List.intercalate_cons_cons,
        List.intercalate_cons_cons, ← List.cons_append, hrest]
      simp

/-- Pieces that do not hold the separator are found again. -/
theorem pieces_intercalate {names : List Text} (hne : names ≠ [])
    (h : ∀ name ∈ names, sep ∉ name) : pieces sep ([sep].intercalate names) = names := by
  induction names with
  | nil => exact absurd rfl hne
  | cons name others ih =>
    have hname := pieces_of_not_mem (h name List.mem_cons_self)
    cases others with
    | nil => simpa using hname
    | cons next more =>
      have hrest := ih (List.cons_ne_nil _ _) fun other hother =>
        h other (List.mem_cons_of_mem _ hother)
      rw [List.intercalate_cons_cons, List.append_assoc]
      show pieces sep (name ++ sep :: [sep].intercalate (next :: more)) = name :: next :: more
      rw [pieces_append_sep, hname, hrest]
      rfl

/-- There is one piece more than there are separators. -/
theorem length_pieces (sep : Char) (t : Text) : (pieces sep t).length = t.count sep + 1 := by
  induction t with
  | nil => rfl
  | cons c rest ih =>
    by_cases hc : c = sep
    · subst hc
      rw [pieces_cons_sep, List.length_cons, ih, List.count_cons_self]
    · obtain ⟨piece, others, hpieces⟩ := List.exists_cons_of_ne_nil (pieces_ne_nil sep rest)
      rw [List.count_cons_of_ne hc, ← ih]
      simp only [pieces, if_neg hc, hpieces, List.length_cons]

/-! ## Lines -/

/-- **Unended** — the text has a last line that no line feed ends. -/
def IsUnended (t : Text) : Prop := t ≠ [] ∧ t.getLast? ≠ some '\n'

instance (t : Text) : Decidable t.IsUnended := inferInstanceAs (Decidable (_ ∧ _))

theorem isUnended_of_not_mem {t : Text} (h : '\n' ∉ t) (hne : t ≠ []) : t.IsUnended :=
  ⟨hne, fun hlast => h (List.mem_of_getLast? hlast)⟩

/-- What comes behind a line feed decides about the end of a text. -/
theorem isUnended_append_cons (line rest : Text) :
    IsUnended (line ++ '\n' :: rest) ↔ rest.IsUnended := by
  rcases List.eq_nil_or_concat rest with rfl | ⟨front, last, rfl⟩
  · simp [IsUnended]
  · simp [IsUnended, List.getLast?_append, List.getLast?_cons]

/-- **The pieces between line feeds** are the lines, and an empty one behind the last line feed. -/
theorem pieces_eq_lines_append (t : Text) :
    pieces '\n' t = lines t ++ if t.IsUnended then [] else [[]] := by
  induction hn : t.length using Nat.strongRecOn generalizing t with
  | ind n ih =>
    subst hn
    rcases not_mem_or_cut t with h | ⟨line, rest, h, rfl⟩
    · by_cases hne : t = []
      · subst hne
        rfl
      · rw [pieces_of_not_mem h, lines_of_not_mem h hne, if_pos (isUnended_of_not_mem h hne)]
        rfl
    · have hshorter : rest.length < (line ++ '\n' :: rest).length := by
        simp only [List.length_append, List.length_cons]
        omega
      have hrest := ih rest.length hshorter rest rfl
      rw [pieces_append_sep, pieces_of_not_mem h, hrest, lines_append h]
      simp only [isUnended_append_cons, List.cons_append, List.nil_append]

theorem newline_not_mem_of_mem_lines {t line : Text} (h : line ∈ lines t) : '\n' ∉ line := by
  apply not_mem_of_mem_pieces
  rw [pieces_eq_lines_append]
  exact List.mem_append_left _ h

/-- There are as many lines as line feeds, and one more if the last line is unended. -/
theorem length_lines (t : Text) :
    (lines t).length = t.count '\n' + if t.IsUnended then 1 else 0 := by
  have hlength := congrArg List.length (pieces_eq_lines_append t)
  rw [length_pieces, List.length_append] at hlength
  split at hlength <;> simp_all

end Text
end LineShell
