/-
# LineShell.Proofs.Words.Protected -- arguments written so that nothing in them counts

Any list of arguments can be written as a line: each argument is spelled with every
character protected, and single spaces stand between them (`protectedLine`). The scanner
reads the arguments back (`words_protectedLine`).

Splitting a line at its redirect clause knows nothing of quotes, and yet it leaves such a
line alone. What stands behind white space in it is always a quotation mark or a backslash,
also where the white space belongs to an argument, since a protected character is followed
by its closing mark (`IsGuarded`). An operator behind white space is therefore out of the
question, whatever the arguments hold (`ofLine_protectedLine`). The same two characters
begin the line, so that it is taken for no builtin.
-/

import LineShell.Proofs.CommandLine.LastClause
import LineShell.Proofs.Words.Meaning
import Mathlib.Data.List.Chain

namespace LineShell

open Text (IsTrimmed)

/-- **Protected line** — arguments as a line in which each character is protected, with a
single space between two arguments. -/
def protectedLine (arguments : List Text) : Text :=
  [' '].intercalate (arguments.map fun argument => (Spelling.protecting argument).written)

/-! ## One argument -/

namespace Spelling

/-- The spelling of one protected character. -/
def writtenChar (c : Char) : Text := if c = '\x27' then ['\\', c] else ['\x27', c, '\x27']

theorem written_protecting_cons (c : Char) (rest : Text) :
    (protecting (c :: rest)).written = writtenChar c ++ (protecting rest).written := by
  by_cases h : c = '\x27' <;> simp [protecting, written, writtenChar, Segment.written, h]

/-- The two characters that a protected one begins with. -/
theorem exists_writtenChar_eq_cons (c : Char) :
    ∃ mark rest, writtenChar c = mark :: rest ∧ (mark = '\x27' ∨ mark = '\\') := by
  unfold writtenChar
  split
  · exact ⟨_, _, rfl, .inr rfl⟩
  · exact ⟨_, _, rfl, .inl rfl⟩

theorem getLast?_writtenChar (c : Char) : (writtenChar c).getLast? = some '\x27' := by
  unfold writtenChar
  split
  · rename_i h
    rw [h]
    rfl
  · rfl

/-- An argument that is not empty begins with a mark when it is written, and ends in a
quotation mark. -/
theorem exists_written_protecting_eq_cons {argument : Text} (h : argument ≠ []) :
    ∃ mark rest, (protecting argument).written = mark :: rest ∧ (mark = '\x27' ∨ mark = '\\') := by
  obtain ⟨c, more, rfl⟩ := List.exists_cons_of_ne_nil h
  obtain ⟨mark, rest, hc, hmark⟩ := exists_writtenChar_eq_cons c
  exact ⟨mark, rest ++ (protecting more).written, by rw [written_protecting_cons, hc]; rfl, hmark⟩

theorem getLast?_written_protecting {argument : Text} (h : argument ≠ []) :
    (protecting argument).written.getLast? = some '\x27' := by
  induction argument with
  | nil => exact absurd rfl h
  | cons c rest ih =>
    rw [written_protecting_cons, List.getLast?_append]
    by_cases hrest : rest = []
    · rw [hrest]
      exact getLast?_writtenChar c
    · rw [ih hrest]
      rfl

theorem isTrimmed_written_protecting {argument : Text} (h : argument ≠ []) :
    IsTrimmed (protecting argument).written := by
  obtain ⟨mark, rest, hwritten, hmark⟩ := exists_written_protecting_eq_cons h
  constructor
  · intro c hc
    rw [hwritten] at hc
    obtain rfl : mark = c := Option.some.inj hc
    rcases hmark with rfl | rfl <;> decide
  · intro c hc
    rw [getLast?_written_protecting h] at hc
    obtain rfl : '\x27' = c := Option.some.inj hc
    decide

theorem written_protecting_ne_nil {argument : Text} (h : argument ≠ []) :
    (protecting argument).written ≠ [] := by
  obtain ⟨mark, rest, hwritten, -⟩ := exists_written_protecting_eq_cons h
  rw [hwritten]
  exact List.cons_ne_nil mark rest

end Spelling

/-! ## The whole line -/

@[simp] theorem protectedLine_nil : protectedLine [] = [] := rfl

@[simp] theorem protectedLine_singleton (argument : Text) :
    protectedLine [argument] = (Spelling.protecting argument).written := by
  simp [protectedLine, List.intercalate]

theorem protectedLine_cons_cons (argument next : Text) (more : List Text) :
    protectedLine (argument :: next :: more) =
      (Spelling.protecting argument).written ++ ' ' :: protectedLine (next :: more) := by
  simp [protectedLine, List.intercalate_cons_cons]

section Line

variable {arguments : List Text}

/-- **Read back** — the words of a protected line are its arguments. -/
theorem words_protectedLine (h : ∀ argument ∈ arguments, argument ≠ []) :
    words (protectedLine arguments) = arguments := by
  induction arguments with
  | nil => rfl
  | cons argument rest ih =>
    have hargument : [argument].filter (· ≠ []) = [argument] := by
      simpa using h argument List.mem_cons_self
    have hrest := ih fun other hother => h other (List.mem_cons_of_mem _ hother)
    cases rest with
    | nil =>
      rw [protectedLine_singleton, words_written, Spelling.meaning_protecting, hargument]
    | cons next more =>
      rw [protectedLine_cons_cons, words_written_space, Spelling.meaning_protecting, hargument,
        hrest]
      rfl

/-- A protected line begins with a quotation mark or a backslash. -/
theorem exists_protectedLine_eq_cons (hne : arguments ≠ [])
    (h : ∀ argument ∈ arguments, argument ≠ []) :
    ∃ mark rest, protectedLine arguments = mark :: rest ∧ (mark = '\x27' ∨ mark = '\\') := by
  obtain ⟨argument, others, rfl⟩ := List.exists_cons_of_ne_nil hne
  obtain ⟨mark, rest, hwritten, hmark⟩ :=
    Spelling.exists_written_protecting_eq_cons (h argument List.mem_cons_self)
  cases others with
  | nil => exact ⟨mark, rest, by rw [protectedLine_singleton, hwritten], hmark⟩
  | cons next more =>
    exact ⟨mark, _, by rw [protectedLine_cons_cons, hwritten]; rfl, hmark⟩

theorem isTrimmed_protectedLine (h : ∀ argument ∈ arguments, argument ≠ []) :
    IsTrimmed (protectedLine arguments) := by
  induction arguments with
  | nil => exact ⟨by simp, by simp⟩
  | cons argument rest ih =>
    have hargument := h argument List.mem_cons_self
    have hothers : ∀ other ∈ rest, other ≠ [] :=
      fun other hother => h other (List.mem_cons_of_mem _ hother)
    have hfirst := Spelling.isTrimmed_written_protecting hargument
    cases rest with
    | nil => rwa [protectedLine_singleton]
    | cons next more =>
      obtain ⟨mark, behind, hrest, -⟩ := exists_protectedLine_eq_cons (List.cons_ne_nil _ _) hothers
      rw [protectedLine_cons_cons]
      exact hfirst.append (ih hothers) (Spelling.written_protecting_ne_nil hargument)
        (by rw [hrest]; exact List.cons_ne_nil _ _) [' ']

/-! ## No clause -/

/-- **Guarded** — what stands behind white space is a quotation mark or a backslash. -/
def IsGuarded (t : Text) : Prop :=
  t.IsChain fun c next => Text.isBlank c = true → next = '\x27' ∨ next = '\\'

/-- No operator begins with the characters that guard. -/
theorem IsGuarded.not_hasClauseAt {t : Text} (h : IsGuarded t) (position : Nat) :
    ¬ CommandLine.HasClauseAt t position := by
  rintro ⟨c, hproper, rfl, -⟩
  obtain ⟨gap, blank, hgap⟩ := (List.eq_nil_or_concat c.gap).resolve_left hproper.gap_ne_nil
  have hblank : Text.isBlank blank = true :=
    List.all_eq_true.mp hproper.gap_blank _ (by simp [hgap])
  obtain ⟨first, others, hoperator, hfirst⟩ : ∃ first others,
      c.operator.written = first :: others ∧ ¬ (first = '\x27' ∨ first = '\\') := by
    cases c.operator <;> exact ⟨_, _, rfl, by decide⟩
  -- the white space in front of the operator would have to be guarded
  have hwritten : c.written =
      (c.command ++ gap) ++ (blank :: first :: (others ++ (c.secondGap ++ c.target))) := by
    rw [CommandLine.Clause.written_eq, hgap, hoperator]
    simp
  rw [IsGuarded, hwritten, List.isChain_append, List.isChain_cons_cons] at h
  exact hfirst (h.2.1.1 hblank)

/-- A protected argument guards whatever it holds, and asks nothing of what comes behind it. -/
theorem isGuarded_written_protecting_append (argument : Text) {rest : Text}
    (h : IsGuarded rest) : IsGuarded ((Spelling.protecting argument).written ++ rest) := by
  induction argument with
  | nil => exact h
  | cons c more ih =>
    rw [Spelling.written_protecting_cons, List.append_assoc]
    -- the last mark of a character is no white space
    have hmark : ∀ behind, IsGuarded behind → IsGuarded ('\x27' :: behind) := by
      intro behind hbehind
      refine List.IsChain.cons hbehind fun next _ hblank => ?_
      exact absurd hblank (by decide)
    by_cases hc : c = '\x27'
    · have hbackslash : Text.isBlank '\\' = false := by decide
      simp only [Spelling.writtenChar, hc, if_true, List.cons_append, List.nil_append]
      exact List.isChain_cons_cons.mpr ⟨fun hblank => absurd hblank (by simp [hbackslash]),
        hmark _ ih⟩
    · simp only [Spelling.writtenChar, hc, if_false, List.cons_append, List.nil_append]
      exact hmark _ (List.isChain_cons_cons.mpr ⟨fun _ => .inl rfl, hmark _ ih⟩)

theorem isGuarded_protectedLine (h : ∀ argument ∈ arguments, argument ≠ []) :
    IsGuarded (protectedLine arguments) := by
  induction arguments with
  | nil => exact List.isChain_nil
  | cons argument rest ih =>
    have hothers : ∀ other ∈ rest, other ≠ [] :=
      fun other hother => h other (List.mem_cons_of_mem _ hother)
    cases rest with
    | nil =>
      have hnil : IsGuarded [] := List.isChain_nil
      have hend := isGuarded_written_protecting_append argument hnil
      rwa [List.append_nil, ← protectedLine_singleton] at hend
    | cons next more =>
      -- the space between two arguments is guarded by the first character of the second one
      obtain ⟨mark, behind, hrest, hmark⟩ :=
        exists_protectedLine_eq_cons (List.cons_ne_nil _ _) hothers
      have hguarded := ih hothers
      rw [protectedLine_cons_cons]
      rw [hrest] at hguarded ⊢
      exact isGuarded_written_protecting_append argument
        (List.isChain_cons_cons.mpr ⟨fun _ => hmark, hguarded⟩)

/-- **Left whole** — a protected line is a command without a target. -/
theorem ofLine_protectedLine (h : ∀ argument ∈ arguments, argument ≠ []) :
    CommandLine.ofLine (protectedLine arguments) = .plain (protectedLine arguments) := by
  have htrim := (isTrimmed_protectedLine h).trim_eq
  have hclause : ∀ position, ¬ CommandLine.HasClauseAt (Text.trim (protectedLine arguments))
      position := by
    rw [htrim]
    exact (isGuarded_protectedLine h).not_hasClauseAt
  rw [CommandLine.ofLine_of_no_clause hclause, htrim]

end Line

end LineShell
