/-
# LineShell.Proofs.CommandLine.Quoted -- operators between quotation marks

The splitter does not know quotes, and so an operator that is quoted can begin a clause. On a line
that ends outside quotes it nearly always does: the quotation that it stands in has been opened in
front of it and is closed behind it, so that there is something on both sides. Only a line feed
keeps the line from being split there (`exists_clause_iff`).

Where all operators between white space are quoted, a line that is split is torn (`IsTorn`): the
command ends within the quotation, and what closes it has gone into the target.
-/

import LineShell.Proofs.CommandLine.Words

namespace LineShell.CommandLine

/-! ## Where operators stand -/

section Operators

variable {t : Text} {position : Nat}

/-- A text is cut at an operator behind the white space in front of it. -/
theorem HasOperatorAt.exists_cut (h : HasOperatorAt t position) :
    ∃ before blank operator next behind,
      Text.isBlank blank = true ∧ Text.isBlank next = true ∧ t.take position = before ++ [blank] ∧
        t.drop position = Operator.written operator ++ next :: behind := by
  obtain ⟨before, blank, operator, next, behind, hblank, hnext, rfl, rfl⟩ := h
  have hcut : before ++ blank :: (operator.written ++ next :: behind) =
      (before ++ [blank]) ++ (operator.written ++ next :: behind) := by
    rw [List.append_assoc, List.singleton_append]
  have hlength : before.length + 1 = (before ++ [blank]).length := by
    rw [List.length_append, List.length_singleton]
  refine ⟨before, blank, operator, next, behind, hblank, hnext, ?_, ?_⟩
  · rw [hcut, hlength, List.take_left]
  · rw [hcut, hlength, List.drop_left]

theorem hasOperatorAt_iff : HasOperatorAt t position ↔ position < t.length ∧
    (t.take position).getLast?.any Text.isBlank = true ∧
    (operator? (t.drop position)).any (·.2.head?.any Text.isBlank) = true := by
  constructor
  · intro h
    obtain ⟨before, blank, operator, next, behind, hblank, hnext, htake, hdrop⟩ := h.exists_cut
    rw [htake, hdrop, operator?_written]
    refine ⟨?_, by simpa using hblank, by simpa using hnext⟩
    have hlength := congrArg List.length hdrop
    simp only [List.length_drop, List.length_append, List.length_cons] at hlength
    omega
  · rintro ⟨hlt, hblank, hnext⟩
    obtain ⟨blank, hlast, hblank⟩ := (Option.any_eq_true ..).mp hblank
    obtain ⟨⟨channel, rest⟩, hoperator, hnext⟩ := (Option.any_eq_true ..).mp hnext
    obtain ⟨next, hhead, hnext⟩ := (Option.any_eq_true ..).mp hnext
    obtain ⟨before, hbefore⟩ := List.getLast?_eq_some_iff.mp hlast
    obtain ⟨behind, rfl⟩ := List.head?_eq_some_iff.mp hhead
    obtain ⟨operator, -, hwritten⟩ := exists_operator_of_operator? hoperator
    refine ⟨before, blank, operator, next, behind, hblank, hnext, ?_, ?_⟩
    · rw [hwritten, ← List.singleton_append, ← List.append_assoc, ← hbefore,
        List.take_append_drop]
    · have hlength := congrArg List.length hbefore
      rw [List.length_take_of_le (Nat.le_of_lt hlt), List.length_append] at hlength
      exact hlength

instance (t : Text) (position : Nat) : Decidable (HasOperatorAt t position) :=
  decidable_of_iff' _ hasOperatorAt_iff

/-- An operator of a text is one of every text that this is a part of. -/
theorem HasOperatorAt.of_infix (h : HasOperatorAt t position) (front back : Text) :
    HasOperatorAt (front ++ (t ++ back)) (front.length + position) := by
  obtain ⟨before, blank, operator, next, behind, hblank, hnext, rfl, rfl⟩ := h
  refine ⟨front ++ before, blank, operator, next, behind ++ back, hblank, hnext, ?_, ?_⟩
  · simp
  · rw [List.length_append, Nat.add_assoc]

theorem HasOperatorAt.of_trim (h : HasOperatorAt (Text.trim t) position) :
    HasOperatorAt t (untrimmed t position) := by
  obtain ⟨behind, -, ht⟩ := Text.exists_trim_append t
  have hoperator := h.of_infix (t.takeWhile Text.isBlank) behind
  rwa [ht] at hoperator

end Operators

theorem not_isMark_written (operator : Operator) : ∀ c ∈ operator.written, isMark c = false := by
  cases operator <;> simp [Operator.written, isMark]

/-! ## Quoted operators -/

/-- **Operators quoted** — every operator between white space stands between quotation marks. -/
def OperatorsQuoted (line : Text) : Prop :=
  ∀ position, HasOperatorAt line position → (Mode.bare.after (line.take position)).isQuoted = true

theorem operatorsQuoted_iff {line : Text} : OperatorsQuoted line ↔
    ∀ position < line.length, HasOperatorAt line position →
      (Mode.bare.after (line.take position)).isQuoted = true :=
  ⟨fun h position _ => h position, fun h position hat => h position (hasOperatorAt_iff.mp hat).1 hat⟩

instance (line : Text) : Decidable (OperatorsQuoted line) :=
  decidable_of_iff' _ operatorsQuoted_iff

section Quoted

variable {line : Text} {position : Nat}

/-- A quotation that is closed behind a text has its closing mark there. -/
theorem exists_isMark {m : Mode} {t : Text} (hm : m.isQuoted = true)
    (hclosed : (m.after t).isQuoted = false) : ∃ c ∈ t, isMark c = true := by
  refine Decidable.byContradiction fun hnone => ?_
  simp only [not_exists, not_and, Bool.not_eq_true] at hnone
  rw [Mode.isQuoted_after hm hnone] at hclosed
  exact absurd hclosed (by simp)

/-- A quoted operator does not stand at either end of a line, so that it is still between white
space when the line is trimmed. -/
theorem HasOperatorAt.exists_in_trim (h : HasOperatorAt line position)
    (hquoted : (Mode.bare.after (line.take position)).isQuoted = true)
    (hclosed : (Mode.bare.after line).isQuoted = false) :
    ∃ other, HasOperatorAt (Text.trim line) other := by
  obtain ⟨before, blank, operator, next, behind, hblank, hnext, htake, hdrop⟩ := h.exists_cut
  have hline : (before ++ [blank]) ++ (operator.written ++ next :: behind) = line := by
    rw [← htake, ← hdrop, List.take_append_drop]
  rw [htake] at hquoted
  rw [← hline, Mode.after_append] at hclosed
  have hfirst : Text.trimStart before ≠ [] := by
    intro hnil
    have hall : Text.allBlank (before ++ [blank]) = true := by
      rw [Text.allBlank_append]
      exact ⟨Text.allBlank_of_trimStart_eq_nil hnil, by simpa [Text.allBlank] using hblank⟩
    rw [Mode.isQuoted_after_blank hall] at hquoted
    exact absurd hquoted (by decide)
  have hlast : Text.trimEnd behind ≠ [] := by
    intro hnil
    have hall : Text.allBlank (next :: behind) = true := by
      rw [Text.allBlank, List.all_cons, hnext]
      exact Text.allBlank_of_trimEnd_eq_nil hnil
    rw [Mode.after_append, Mode.isQuoted_after_blank hall,
      Mode.isQuoted_after hquoted (not_isMark_written operator)] at hclosed
    exact absurd hclosed (by simp)
  have hwhole : before ++ (blank :: (operator.written ++ [next]) ++ behind) = line := by
    rw [← hline]
    simp
  have htrim := Text.trim_append_append hfirst hlast (blank :: (operator.written ++ [next]))
  rw [hwhole] at htrim
  refine ⟨_, Text.trimStart before, blank, operator, next, Text.trimEnd behind, hblank, hnext, ?_, rfl⟩
  rw [htrim]
  simp

/-- Without line feeds, a line with quoted operators only is split if it has any. -/
theorem exists_clause_iff (h : OperatorsQuoted line)
    (hclosed : (Mode.bare.after line).isQuoted = false) (hsingle : '\n' ∉ line) :
    (∃ position, HasClauseAt (Text.trim line) position) ↔ ∃ position, HasOperatorAt line position := by
  have hs := Text.isTrimmed_trim line
  have hsingle' : '\n' ∉ Text.trim line := fun hmem => hsingle (Text.mem_of_mem_trim hmem)
  constructor
  · rintro ⟨position, hat⟩
    exact ⟨_, hat.hasOperatorAt.of_trim⟩
  · rintro ⟨position, hat⟩
    obtain ⟨other, hother⟩ := hat.exists_in_trim (h position hat) hclosed
    exact ⟨other, (hasClauseAt_iff_hasOperatorAt hs hsingle').mpr hother⟩

/-- The text of a line is kept as it is if it has no clause. -/
theorem ofLine_eq_plain_iff :
    ofLine line = plain (Text.trim line) ↔ ∀ position, ¬ HasClauseAt (Text.trim line) position := by
  refine ⟨fun h position hat => ?_, ofLine_of_no_clause⟩
  have hredirected := isRedirected_ofLine_iff.mpr ⟨position, hat⟩
  rw [h] at hredirected
  exact absurd hredirected (by simp [plain, isRedirected])

/-- White space between a command and a quoted operator is quoted, too, and so is the end of the
command. -/
theorem isQuoted_after_trimEnd {command gap : Text} (hgap : Text.allBlank gap = true)
    (h : (Mode.bare.after (command ++ gap)).isQuoted = true) :
    (Mode.bare.after (Text.trimEnd command)).isQuoted = true := by
  obtain ⟨blanks, hblanks, hcommand⟩ := Text.exists_trimEnd_append command
  rwa [Mode.after_append, Mode.isQuoted_after_blank hgap, ← hcommand, Mode.after_append,
    Mode.isQuoted_after_blank hblanks] at h

/-- A quotation that an operator stands in is closed in the target, for neither the operator nor
the white space around it holds a mark. -/
theorem exists_isMark_target {m : Mode} {c : Clause} {behind : Text} (hproper : c.IsProper)
    (hbehind : Text.allBlank behind = true) (hm : m.isQuoted = true)
    (hclosed : (m.after (c.operator.written ++ (c.secondGap ++ c.target) ++ behind)).isQuoted = false) :
    ∃ mark ∈ Text.trim c.target, isMark mark = true := by
  rw [Mode.after_append, Mode.isQuoted_after_blank hbehind, Mode.after_append, Mode.after_append]
    at hclosed
  have hgap : ((m.after c.operator.written).after c.secondGap).isQuoted = true := by
    rw [Mode.isQuoted_after_blank hproper.secondGap_blank]
    exact Mode.isQuoted_after hm (not_isMark_written c.operator)
  obtain ⟨mark, hmem, hmark⟩ := exists_isMark hgap hclosed
  exact ⟨mark, Text.mem_trim_of_not_isBlank hmem (not_isBlank_of_isMark hmark), hmark⟩

/-- **Torn** — the command of a split line ends within a quotation, and the target holds a
quotation mark. -/
structure IsTorn (parsed : CommandLine) : Prop where
  opened : (Mode.bare.after parsed.command).isQuoted = true
  closing : ∃ target, parsed.target? = some target ∧ ∃ mark ∈ target, isMark mark = true

/-- A line with quoted operators only is torn if it has a clause. -/
theorem isTorn_ofLine (h : OperatorsQuoted line)
    (hclosed : (Mode.bare.after line).isQuoted = false)
    (hclause : ∃ position, HasClauseAt (Text.trim line) position) : IsTorn (ofLine line) := by
  obtain ⟨c, hproper, hwritten, -, hsplit⟩ := exists_last_clause hclause
  have hs := Text.isTrimmed_trim line
  have hat : HasClauseAt (Text.trim line) c.position := ⟨c, hproper, hwritten, rfl⟩
  have hquoted := h _ hat.hasOperatorAt.of_trim
  rw [take_untrimmed hwritten, Mode.bare_after_blank_append List.all_takeWhile] at hquoted
  rw [hsplit, Clause.split]
  rw [← hwritten] at hs
  constructor
  · rw [command_redirected, Clause.trim_command hs]
    exact isQuoted_after_trimEnd hproper.gap_blank hquoted
  · refine ⟨Text.trim c.target, by cases c.operator <;> rfl, ?_⟩
    obtain ⟨behind, hbehind, hline⟩ := Text.exists_trim_append line
    rw [← hline, ← hwritten, Mode.bare_after_blank_append List.all_takeWhile, Clause.written_eq,
      List.append_assoc, Mode.after_append] at hclosed
    exact exists_isMark_target hproper hbehind hquoted hclosed

end Quoted

end LineShell.CommandLine
