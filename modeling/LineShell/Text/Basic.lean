/-
# LineShell.Text.Basic -- texts as lists of characters

Every rule of a command line (what a word is, where a clause begins, which name a
path enters) is a rule on single characters and their order. A text is therefore a
plain list of characters: rules are recursions on it, and facts about them are
inductions on it. String literals are read as texts where a text is expected.

The two ways of cutting a text that all the others are built from stand here.
`pieces` cuts at every occurrence of a separator and loses nothing but the
separators (`intercalate_pieces`); `lines` cuts after every line feed and keeps no
empty piece after the last one.
-/

namespace LineShell

/-- **Text** — a finite sequence of characters. -/
abbrev Text := List Char

instance : Coe String Text := ⟨String.toList⟩

instance : LawfulBEq Text := inferInstance

namespace Text

/-- The decimal notation of a whole number. -/
def ofInt (n : Int) : Text := (toString n).toList

/-! ## Cutting at a separator -/

/-- **Pieces** — the texts between the occurrences of `sep`, in order. There is
always one more piece than there are separators. -/
def pieces (sep : Char) : Text → List Text
  | [] => [[]]
  | c :: rest =>
    if c = sep then [] :: pieces sep rest
    else match pieces sep rest with
      | [] => [[c]]
      | piece :: others => (c :: piece) :: others

theorem pieces_ne_nil (sep : Char) (t : Text) : pieces sep t ≠ [] := by
  cases t with
  | nil => simp [pieces]
  | cons c rest =>
    unfold pieces
    split
    · simp
    · split <;> simp

theorem pieces_cons_sep (sep : Char) (t : Text) :
    pieces sep (sep :: t) = [] :: pieces sep t := by
  simp [pieces]

/-- Nothing but the separators is lost. -/
theorem intercalate_pieces (sep : Char) (t : Text) :
    [sep].intercalate (pieces sep t) = t := by
  induction t with
  | nil => simp [pieces]
  | cons c rest ih =>
    cases h : pieces sep rest with
    | nil => exact absurd h (pieces_ne_nil sep rest)
    | cons piece others =>
      rw [h] at ih
      by_cases hc : c = sep
      · subst hc
        simp only [pieces, h, if_pos]
        rw [List.intercalate_cons_cons, ih]
        simp
      · simp only [pieces, h, if_neg hc]
        cases others with
        | nil => simp_all
        | cons other more =>
          rw [List.intercalate_cons_cons] at ih ⊢
          simpa using ih

/-! ## Cutting after line feeds -/

/-- **Lines** — the texts ended by a line feed, in order and without it, and a
last unended one if it is not empty. -/
def lines : Text → List Text
  | [] => []
  | c :: rest =>
    if c = '\n' then [] :: lines rest
    else match lines rest with
      | [] => [[c]]
      | line :: others => (c :: line) :: others

/-- The line in front of the first line feed, and the lines behind it. -/
theorem lines_append {t : Text} (h : '\n' ∉ t) (rest : Text) :
    lines (t ++ '\n' :: rest) = t :: lines rest := by
  induction t with
  | nil => simp [lines]
  | cons c more ih =>
    have hc : c ≠ '\n' := fun e => h (by simp [e])
    have := ih fun m => h (List.mem_cons_of_mem _ m)
    simp [lines, hc, this]

/-- A text without line feeds as its only line. -/
theorem lines_of_not_mem {t : Text} (h : '\n' ∉ t) (hne : t ≠ []) : lines t = [t] := by
  induction t with
  | nil => exact absurd rfl hne
  | cons c rest ih =>
    have hc : c ≠ '\n' := fun e => h (by simp [e])
    cases rest with
    | nil => simp [lines, hc]
    | cons d more =>
      have := ih (fun m => h (List.mem_cons_of_mem _ m)) (by simp)
      simp [lines, hc] at this ⊢
      simp [this]

/-- A text has no line feed, or can be cut at its first one. -/
theorem not_mem_or_cut (t : Text) :
    '\n' ∉ t ∨ ∃ line rest : Text, '\n' ∉ line ∧ t = line ++ '\n' :: rest := by
  induction t with
  | nil => exact .inl (by simp)
  | cons c more ih =>
    by_cases hc : c = '\n'
    · exact .inr ⟨[], more, by simp, by simp [hc]⟩
    · rcases ih with h | ⟨line, rest, h, e⟩
      · exact .inl (by simp [h, Ne.symm hc])
      · exact .inr ⟨c :: line, rest, by simp [h, Ne.symm hc], by simp [e]⟩

/-- The line endings of a terminal or of a foreign program: a carriage return and
line feed together, or a carriage return alone, stand for one line feed. -/
def plainNewlines : Text → Text
  | [] => []
  | '\r' :: '\n' :: rest => '\n' :: plainNewlines rest
  | c :: rest => (if c = '\r' then '\n' else c) :: plainNewlines rest

end Text
end LineShell
