/-
# LineShell.Proofs.CommandLine.Words -- the words of a command that was split off

Splitting trims the command before the scanner reads it. Trimming takes white space and the
scanner takes spaces, each for what stands between two things, so the two can only agree on lines
in which the space is the only white space. There they do, but for one character: trimming does
not know that a backslash can stand in front of a space, and takes the space away from it. Then
the last word of the command ends in the backslash instead (`ofLine_keepsWords`).

The command of a line without a clause is compared with the whole line, and that of a line with
one with everything in front of the operator. The operator has to stand outside quotes: what is in
front of it has no words of its own otherwise.
-/

import LineShell.Proofs.CommandLine.Rewritten
import LineShell.Proofs.Words.Ends

namespace LineShell.CommandLine

section Parts

variable {line : Text} {position : Nat}

/-- Where a position of the trimmed line is in the line itself. -/
def untrimmed (line : Text) (position : Nat) : Nat :=
  (line.takeWhile Text.isBlank).length + position

/-- **Split at** — the last clause of the line has its operator there. -/
def IsSplitAt (line : Text) (position : Nat) : Prop :=
  HasClauseAt (Text.trim line) position ∧
    ∀ other, HasClauseAt (Text.trim line) other → other ≤ position

instance (line : Text) (position : Nat) : Decidable (HasClauseAt (Text.trim line) position) :=
  decidable_of_iff' _ (hasClauseAt_iff (Text.isTrimmed_trim line))

theorem isSplitAt_iff : IsSplitAt line position ↔ HasClauseAt (Text.trim line) position ∧
    ∀ other < (Text.trim line).length, HasClauseAt (Text.trim line) other → other ≤ position := by
  refine and_congr_right fun _ => ⟨fun hlast other _ => hlast other, fun hlast other hother => ?_⟩
  obtain ⟨c, hproper, hwritten, rfl⟩ := hother
  refine hlast _ ?_ ⟨c, hproper, hwritten, rfl⟩
  rw [← hwritten]
  exact Clause.position_lt_length hproper

instance (line : Text) (position : Nat) : Decidable (IsSplitAt line position) :=
  decidable_of_iff' _ isSplitAt_iff

/-- What stands in front of the operator of a clause. -/
theorem take_untrimmed {c : Clause} (h : c.written = Text.trim line) :
    line.take (untrimmed line c.position) =
      line.takeWhile Text.isBlank ++ (c.command ++ c.gap) := by
  obtain ⟨behind, -, hline⟩ := Text.exists_trim_append line
  let front := line.takeWhile Text.isBlank ++ (c.command ++ c.gap)
  have hcut : front ++ (c.operator.written ++ (c.secondGap ++ c.target) ++ behind) = line := by
    rw [← h, Clause.written_eq] at hline
    simpa only [front, List.append_assoc] using hline
  have hlength : untrimmed line c.position = front.length := by
    simp only [front, untrimmed, Clause.position, List.length_append]
  calc line.take (untrimmed line c.position)
    _ = (front ++ (c.operator.written ++ (c.secondGap ++ c.target) ++ behind)).take front.length := by
        rw [hcut, hlength]
    _ = front := List.take_left

end Parts

/-! ## White space that is made of spaces -/

/-- **Spaced** — the space is the only white space in the text. -/
def IsSpaced (t : Text) : Prop := ∀ c ∈ t, Text.isBlank c = true → c = ' '

instance (t : Text) : Decidable (IsSpaced t) :=
  List.decidableBAll (fun c => Text.isBlank c = true → c = ' ') t

theorem IsSpaced.eq_replicate {t : Text} (h : IsSpaced t) (hblank : Text.allBlank t = true) :
    t = List.replicate t.length ' ' :=
  List.eq_replicate_of_mem fun c hc => h c hc (List.all_eq_true.mp hblank c hc)

/-- A command keeps its words without the white space around it, where that is made of spaces. -/
theorem keepsWords_of_blank {before command behind : Text}
    (hspaced : IsSpaced (before ++ (command ++ behind))) (hbefore : Text.allBlank before = true)
    (hbehind : Text.allBlank behind = true)
    (hquoted : (Mode.bare.after (before ++ (command ++ behind))).isQuoted = false)
    (hends : Mode.bare.after command = .escaped → behind ≠ []) :
    KeepsWords command (before ++ (command ++ behind)) := by
  rw [Mode.bare_after_blank_append hbefore, Mode.after_append, Mode.isQuoted_after_blank hbehind]
    at hquoted
  have hfirst : before = List.replicate before.length ' ' :=
    IsSpaced.eq_replicate (fun c hc => hspaced c (List.mem_append_left _ hc)) hbefore
  have hlast : behind = List.replicate behind.length ' ' :=
    IsSpaced.eq_replicate (fun c hc => hspaced c (by simp [hc])) hbehind
  rw [hfirst, hlast]
  refine keepsWords_spaces hquoted before.length fun hescaped => ?_
  exact Nat.ne_of_gt (List.length_pos_iff.mpr (hends hescaped))

/-! ## The two kinds of line -/

variable {line : Text}

/-- A trimmed line keeps its words. -/
theorem keepsWords_trim (hspaced : IsSpaced line) (hclosed : Mode.bare.after line = .bare) :
    KeepsWords (Text.trim line) line := by
  obtain ⟨behind, hbehind, hline⟩ := Text.exists_trim_append line
  rw [← hline] at hspaced hclosed
  have hkeeps := keepsWords_of_blank hspaced List.all_takeWhile hbehind (by rw [hclosed]; rfl) ?_
  · rwa [hline] at hkeeps
  · -- a backslash that waits at the end of the trimmed line would wait at the end of the line
    rintro hescaped rfl
    rw [Mode.bare_after_blank_append List.all_takeWhile, List.append_nil, hescaped] at hclosed
    exact absurd hclosed (by decide)

/-- The command of a clause keeps the words of what stands in front of the operator. -/
theorem keepsWords_command (hspaced : IsSpaced line) {c : Clause} (hproper : c.IsProper)
    (hwritten : c.written = Text.trim line)
    (hquoted : (Mode.bare.after (line.take (untrimmed line c.position))).isQuoted = false) :
    KeepsWords (Text.trim c.command) (line.take (untrimmed line c.position)) := by
  have hs := Text.isTrimmed_trim line
  rw [← hwritten] at hs
  rw [Clause.trim_command hs]
  -- the white space at the end of the command is counted to the gap
  obtain ⟨blanks, hblanks, hcommand⟩ := Text.exists_trimEnd_append c.command
  have htake : line.take (untrimmed line c.position) = line.takeWhile Text.isBlank ++
      (Text.trimEnd c.command ++ (blanks ++ c.gap)) := by
    rw [take_untrimmed hwritten, ← List.append_assoc (Text.trimEnd c.command), hcommand]
  have hbehind := Text.allBlank_append.mpr ⟨hblanks, hproper.gap_blank⟩
  rw [htake] at hquoted ⊢
  refine keepsWords_of_blank ?_ List.all_takeWhile hbehind hquoted fun _ => ?_
  · rw [← htake]
    exact fun d hd => hspaced d (List.mem_of_mem_take hd)
  · exact List.append_ne_nil_of_right_ne_nil blanks hproper.gap_ne_nil

/-- **The words of a command** — for every line in which the space is the only white space, and
which ends outside quotes with no backslash waiting. A line without a clause has the words of its
command. If it has one, and the operator stands outside quotes, then what stands in front of the
operator has the words of the command. In both cases this is so unless the space behind a backslash
at the end of the command was trimmed away. -/
theorem ofLine_keepsWords (hspaced : IsSpaced line) (hclosed : Mode.bare.after line = .bare) :
    ((ofLine line).isRedirected = false → KeepsWords (ofLine line).command line) ∧
    ∀ position, IsSplitAt line position →
      (Mode.bare.after (line.take (untrimmed line position))).isQuoted = false →
      KeepsWords (ofLine line).command (line.take (untrimmed line position)) := by
  constructor
  · intro hplain
    have hnone : ∀ position, ¬ HasClauseAt (Text.trim line) position := by
      intro position hclause
      rw [isRedirected_ofLine_iff.mpr ⟨position, hclause⟩] at hplain
      exact absurd hplain (by simp)
    rw [ofLine_of_no_clause hnone, command_plain]
    exact keepsWords_trim hspaced hclosed
  · rintro position ⟨⟨c, hproper, hwritten, rfl⟩, hlast⟩ hquoted
    rw [ofLine_of_last_clause hproper hwritten hlast, Clause.split, command_redirected]
    exact keepsWords_command hspaced hproper hwritten hquoted

/-- A quoted operator, an escaped space and an escaped backslash in front of the gap. -/
theorem ofLine_keepsWords_escaped_backslash :
    let line : Text := "  echo \x27a > b\x27 \\ c\\\\   2> d "
    let before : Text := "  echo \x27a > b\x27 \\ c\\\\   "
    IsSpaced line ∧ Mode.bare.after line = .bare ∧ IsSplitAt line 21 ∧
      line.take (untrimmed line 21) = before ∧ (Mode.bare.after before).isQuoted = false ∧
      words (ofLine line).command = words before ∧
      words before = (["echo", "a > b", " c\\"] : List Text) := by
  intro line before
  have hspaced : IsSpaced line := by decide
  have hclosed : Mode.bare.after line = .bare := by decide
  have hsplit : IsSplitAt line 21 := by decide +kernel
  have hbefore : line.take (untrimmed line 21) = before := by decide +kernel
  have hquoted : (Mode.bare.after before).isQuoted = false := by decide
  have hkeeps := (ofLine_keepsWords hspaced hclosed).2 21 hsplit (hbefore ▸ hquoted)
  rw [hbefore] at hkeeps
  have hend : Mode.bare.after (ofLine line).command ≠ .escaped := by decide +kernel
  exact ⟨hspaced, hclosed, hsplit, hbefore, hquoted, hkeeps.same hend, by decide⟩

/-- A space that a backslash at the end of a line stands in front of is trimmed away all the same.
So is the one in front of an operator. -/
theorem ofLine_loses_escaped_space :
    let line : Text := "echo a\\ "
    let redirected : Text := "echo a\\  > f"
    let before : Text := "echo a\\  "
    (IsSpaced line ∧ Mode.bare.after line = .bare ∧ (ofLine line).isRedirected = false ∧
      words line = (["echo", "a "] : List Text) ∧
      words (ofLine line).command = (["echo", "a\\"] : List Text) ∧
      words (ofLine line).command ≠ words line) ∧
    IsSpaced redirected ∧ Mode.bare.after redirected = .bare ∧ IsSplitAt redirected 9 ∧
      redirected.take (untrimmed redirected 9) = before ∧
      (Mode.bare.after before).isQuoted = false ∧
      words before = (["echo", "a "] : List Text) ∧
      words (ofLine redirected).command = (["echo", "a\\"] : List Text) ∧
      words (ofLine redirected).command ≠ words before := by
  decide +kernel

end LineShell.CommandLine
