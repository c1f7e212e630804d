/-
# LineShell.Proofs.CommandLine.FirstWord -- lines that differ in their first word

Two lines that differ in the first word alone are split in the same way. An operator has white
space in front of it, and a first word has none, so that every clause of the line keeps the
word in its command (`Clause.IsProper.exists_behind`). Another word in its place shifts all
clauses by the same distance, and the last one stays the last (`exists_ofLine_eq`). This is so
for every text behind the word, also for one that begins with an operator.

The scanner is outside quotes behind a first word without marks of quoting, so that the rest of
the command means what it means on its own (`words_append_of_ordinary`), whether or not its
quotations are closed.
-/

import LineShell.Proofs.CommandLine.LastClause
import LineShell.Proofs.Words.Meaning

namespace LineShell

/-! ## Texts without white space -/

namespace Text

/-- **Solid** — the text is not empty and has no white space in it. -/
structure IsSolid (t : Text) : Prop where
  ne_nil : t ≠ []
  not_blank : ∀ c ∈ t, isBlank c = false

theorem isSolid_iff {t : Text} : IsSolid t ↔ t ≠ [] ∧ t.all (! isBlank ·) = true := by
  simp only [List.all_eq_true, Bool.not_eq_true']
  exact ⟨fun h => ⟨h.ne_nil, h.not_blank⟩, fun h => ⟨h.1, h.2⟩⟩

instance (t : Text) : Decidable (IsSolid t) := decidable_of_iff' _ isSolid_iff

theorem trimEnd_prefix (t : Text) : trimEnd t <+: t := by
  obtain ⟨blanks, -, h⟩ := exists_trimEnd_append t
  exact ⟨blanks, h⟩

namespace IsSolid

variable {word : Text} (h : IsSolid word)
include h

theorem newline_not_mem : '\n' ∉ word := by
  intro hmem
  exact absurd (h.not_blank _ hmem) (by decide)

/-- White space is trimmed away behind the word only. -/
theorem trim_append (rest : Text) : trim (word ++ rest) = word ++ trimEnd rest := by
  obtain ⟨c, more, rfl⟩ := List.exists_cons_of_ne_nil h.ne_nil
  have hstart : trimStart (c :: more ++ rest) = c :: more ++ rest :=
    trimStart_of_head (h.not_blank c List.mem_cons_self)
  have hback : (c :: more).reverse.dropWhile isBlank = (c :: more).reverse := by
    refine trimStart_eq_self fun d hd => h.not_blank d ?_
    exact List.mem_reverse.mp (List.mem_of_mem_head? hd)
  rw [trim, hstart, trimEnd, trimEnd, List.reverse_append, List.dropWhile_append]
  split
  · rename_i hnone
    rw [hback, List.reverse_reverse, List.isEmpty_iff.mp hnone, List.reverse_nil, List.append_nil]
  · rw [List.reverse_append, List.reverse_reverse]

end IsSolid
end Text

open Text (IsSolid)

/-! ## Clauses behind a word -/

namespace CommandLine

namespace Clause

/-- The clause with a word in front of its command. -/
def behind (word : Text) (c : Clause) : Clause := { c with command := word ++ c.command }

@[simp] theorem written_behind (word : Text) (c : Clause) :
    (c.behind word).written = word ++ c.written := by
  simp [behind, written]

@[simp] theorem position_behind (word : Text) (c : Clause) :
    (c.behind word).position = word.length + c.position := by
  simp [behind, position]

theorem split_behind (c : Clause) {word : Text} (h : IsSolid word) :
    (c.behind word).split =
      redirected (word ++ Text.trimEnd c.command) c.operator.channel (Text.trim c.target) := by
  rw [split, behind, h.trim_append]

namespace IsProper

variable {word other rest : Text} {c : Clause}

/-- The first word of a line belongs to the command of every clause. -/
theorem exists_behind (h : c.IsProper) (hword : IsSolid word) (hwritten : c.written = word ++ rest) :
    ∃ d : Clause, c = d.behind word ∧ d.written = rest := by
  have hcommand : word <+: c.command := by
    have hline : c.command ++ (c.gap ++ (c.operator.written ++ (c.secondGap ++ c.target))) =
        word ++ rest := by
      rw [← hwritten, written_eq, List.append_assoc]
    rcases List.append_eq_append_iff.mp hline with ⟨more, rfl, hrest⟩ | ⟨more, hmore, -⟩
    · cases more with
      | nil => simp
      | cons d others =>
        -- otherwise the gap would begin within the word
        obtain ⟨blank, blanks, hgap⟩ := List.exists_cons_of_ne_nil h.gap_ne_nil
        have hblank : Text.isBlank blank = true :=
          List.all_eq_true.mp h.gap_blank _ (by simp [hgap])
        rw [hgap] at hrest
        obtain rfl : blank = d := (List.cons.inj hrest).1
        rw [hword.not_blank blank (by simp)] at hblank
        exact absurd hblank (by simp)
    · exact ⟨more, hmore.symm⟩
  obtain ⟨command, hcommand⟩ := hcommand
  let d : Clause := { c with command := command }
  have hc : c = d.behind word := by
    rw [behind, hcommand]
  refine ⟨d, hc, ?_⟩
  rw [hc, written_behind] at hwritten
  exact List.append_cancel_left hwritten

/-- A clause stays proper with another word in front of its command. -/
theorem behind (h : (c.behind word).IsProper) (hother : IsSolid other) :
    (c.behind other).IsProper where
  gap_ne_nil := h.gap_ne_nil
  gap_blank := h.gap_blank
  secondGap_ne_nil := h.secondGap_ne_nil
  secondGap_blank := h.secondGap_blank
  command_ne_nil := List.append_ne_nil_of_left_ne_nil hother.ne_nil _
  target_ne_nil := h.target_ne_nil
  command_single := by
    intro hmem
    rcases List.mem_append.mp hmem with hmem | hmem
    · exact hother.newline_not_mem hmem
    · exact h.command_single (List.mem_append_right word hmem)
  target_single := h.target_single

end IsProper
end Clause

/-- Where a line has a clause behind its first word, a line with another word has one. -/
theorem HasClauseAt.behind {word other rest : Text} {position : Nat} (hword : IsSolid word)
    (hother : IsSolid other) (h : HasClauseAt (word ++ rest) position) :
    ∃ distance, position = word.length + distance ∧
      HasClauseAt (other ++ rest) (other.length + distance) := by
  obtain ⟨c, hproper, hwritten, rfl⟩ := h
  obtain ⟨d, rfl, hd⟩ := hproper.exists_behind hword hwritten
  refine ⟨d.position, d.position_behind word, d.behind other, hproper.behind hother, ?_, ?_⟩
  · rw [Clause.written_behind, hd]
  · exact d.position_behind other

/-- A clause that is the last one behind a word is the last one behind every word. -/
theorem ofLine_behind {word other rest : Text} {c : Clause} (hword : IsSolid word)
    (hother : IsSolid other) (hproper : (c.behind word).IsProper)
    (hwritten : c.written = Text.trimEnd rest)
    (hlast : ∀ position, HasClauseAt (word ++ Text.trimEnd rest) position →
      position ≤ (c.behind word).position) :
    ofLine (other ++ rest) =
      redirected (other ++ Text.trimEnd c.command) c.operator.channel (Text.trim c.target) := by
  rw [← c.split_behind hother]
  refine ofLine_of_last_clause (hproper.behind hother) ?_ ?_ <;> rw [hother.trim_append]
  · rw [Clause.written_behind, hwritten]
  · intro position hposition
    obtain ⟨distance, rfl, hmoved⟩ := hposition.behind hother hword
    have hle := hlast _ hmoved
    rw [Clause.position_behind] at hle ⊢
    omega

theorem redirected_eq (command target : Text) (channel : Channel) :
    redirected command channel target =
      ⟨command, (redirected [] channel target).output, (redirected [] channel target).error⟩ := by
  cases channel <;> rfl

/-- **The first word** — what stands behind the first word of a line and a space is split without
regard to the word: the targets do not depend on it, nor does what follows it in the command. -/
theorem exists_ofLine_eq (text : Text) :
    ∃ rest output error, rest <+: ' ' :: text ∧
      ∀ word, IsSolid word → ofLine (word ++ ' ' :: text) = ⟨word ++ rest, output, error⟩ := by
  have hbehind : Text.trimEnd (' ' :: text) <+: ' ' :: text := Text.trimEnd_prefix _
  -- some line with this text decides about all of them
  have hfirst : IsSolid ['x'] := by decide
  by_cases hclause : ∃ position, HasClauseAt (['x'] ++ Text.trimEnd (' ' :: text)) position
  · rw [← hfirst.trim_append (' ' :: text)] at hclause
    obtain ⟨c, hproper, hwritten, hlast, -⟩ := exists_last_clause hclause
    rw [hfirst.trim_append] at hwritten hlast
    obtain ⟨d, rfl, hd⟩ := hproper.exists_behind hfirst hwritten
    have hcommand : d.command <+: Text.trimEnd (' ' :: text) := by
      rw [← hd, Clause.written_eq, List.append_assoc]
      exact List.prefix_append _ _
    have hrest : Text.trimEnd d.command <+: ' ' :: text :=
      ((Text.trimEnd_prefix _).trans hcommand).trans hbehind
    let targets := redirected [] d.operator.channel (Text.trim d.target)
    refine ⟨_, targets.output, targets.error, hrest, fun word hword => ?_⟩
    rw [ofLine_behind hfirst hword hproper hd hlast]
    exact redirected_eq _ _ _
  · refine ⟨_, none, none, hbehind, fun word hword => ?_⟩
    have hnone : ∀ position, ¬ HasClauseAt (Text.trim (word ++ ' ' :: text)) position := by
      rw [hword.trim_append]
      intro position hposition
      obtain ⟨distance, -, hmoved⟩ := hposition.behind hword hfirst
      exact hclause ⟨_, hmoved⟩
    rw [ofLine_of_no_clause hnone, hword.trim_append]
    rfl

end CommandLine

/-! ## Words behind a word -/

/-- **Ordinary** — every character of the text stands for itself and is no space. -/
def IsOrdinary (t : Text) : Prop := ∀ c ∈ t, c ≠ ' ' ∧ c ≠ '\x27' ∧ c ≠ '\x22' ∧ c ≠ '\\'

instance (t : Text) : Decidable (IsOrdinary t) :=
  List.decidableBAll (fun c => c ≠ ' ' ∧ c ≠ '\x27' ∧ c ≠ '\x22' ∧ c ≠ '\\') t

/-- Such a text is a spelling of itself. -/
theorem exists_spelling_of_ordinary {word : Text} (h : IsOrdinary word) :
    ∃ spelling : Spelling, spelling.written = word ∧ spelling.meaning = word := by
  induction word with
  | nil => exact ⟨[], rfl, rfl⟩
  | cons c more ih =>
    obtain ⟨spelling, hwritten, hmeaning⟩ := ih fun d hd => h d (List.mem_cons_of_mem c hd)
    refine ⟨.bare c (h c List.mem_cons_self) :: spelling, ?_, ?_⟩
    · exact congrArg (c :: ·) hwritten
    · exact congrArg (c :: ·) hmeaning

/-- Such a text at the front of a command is its first word, and the other words are those of
the rest. -/
theorem words_append_of_ordinary {word rest text : Text} (hne : word ≠ [])
    (h : IsOrdinary word) (hrest : rest <+: ' ' :: text) :
    words (word ++ rest) = word :: words rest := by
  obtain ⟨spelling, hwritten, hmeaning⟩ := exists_spelling_of_ordinary h
  have hone : [spelling.meaning].filter (· ≠ []) = [word] := by
    simp [hmeaning, hne]
  rw [← hwritten]
  rcases List.prefix_cons_iff.mp hrest with rfl | ⟨more, rfl, -⟩
  · rw [List.append_nil, words_written, hone, hwritten]
    rfl
  · rw [words_written_space, hone, words_space_cons, hwritten]
    rfl

end LineShell
