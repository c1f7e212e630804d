/-
# LineShell.Proofs.CommandLine.Rewritten -- a split line written out again

A line that was split can be written out again with single spaces around its operator, and is then
split in the same place. Trimming the command and the target, and taking all but one space away
around the operator, brings no other clause about (`splitting_settles`). This is so for lines
without line feeds. In these, every operator with white space on both sides begins a clause
(`hasClauseAt_iff_hasOperatorAt`), so that none stands behind the one that was split at, and a
target that begins with an operator, or holds one, is out of the question.

The command that is split off may be a line with clauses of its own. It is shorter than the line,
so that splitting it again and again comes to an end.
-/

import LineShell.Proofs.CommandLine.LastClause

namespace LineShell.CommandLine

open Text (IsTrimmed)

/-! ## Operators between white space -/

/-- An operator stands at `position` with white space on both sides. -/
def HasOperatorAt (t : Text) (position : Nat) : Prop :=
  ∃ (before : Text) (blank : Char) (operator : Operator) (next : Char) (behind : Text),
    Text.isBlank blank = true ∧ Text.isBlank next = true ∧
      before ++ blank :: (operator.written ++ next :: behind) = t ∧ position = before.length + 1

section Operators

variable {t : Text} {position : Nat}

/-- A clause has an operator between white space. -/
theorem HasClauseAt.hasOperatorAt (h : HasClauseAt t position) : HasOperatorAt t position := by
  obtain ⟨c, hproper, rfl, rfl⟩ := h
  obtain ⟨gap, blank, hgap, hblank⟩ :=
    Text.exists_concat_of_allBlank hproper.gap_blank hproper.gap_ne_nil
  obtain ⟨next, more, hsecond⟩ := List.exists_cons_of_ne_nil hproper.secondGap_ne_nil
  have hnext : Text.isBlank next = true :=
    List.all_eq_true.mp hproper.secondGap_blank _ (by simp [hsecond])
  refine ⟨c.command ++ gap, blank, c.operator, next, more ++ c.target, hblank, hnext, ?_, ?_⟩
  · rw [Clause.written_eq, hgap, hsecond]
    simp
  · simp [Clause.position, hgap, Nat.add_assoc]

/-- In a trimmed text without line feeds, that makes a clause: the operator does not stand at
either end. -/
theorem hasClauseAt_iff_hasOperatorAt (ht : IsTrimmed t) (hsingle : '\n' ∉ t) :
    HasClauseAt t position ↔ HasOperatorAt t position := by
  refine ⟨HasClauseAt.hasOperatorAt, ?_⟩
  rintro ⟨before, blank, operator, next, behind, hblank, hnext, rfl, rfl⟩
  have hbefore : before ≠ [] := by
    rintro rfl
    rw [ht.head blank rfl] at hblank
    exact absurd hblank (by simp)
  have hbehind : behind ≠ [] := by
    rintro rfl
    have hlast : (before ++ blank :: (operator.written ++ [next])).getLast? = some next := by
      rw [← List.cons_append, ← List.append_assoc, List.getLast?_concat]
    rw [ht.last next hlast] at hnext
    exact absurd hnext (by simp)
  let c : Clause := ⟨before, [blank], operator, [next], behind⟩
  have hproper : c.IsProper := by
    refine ⟨by simp [c], by simpa [c, Text.allBlank] using hblank, by simp [c],
      by simpa [c, Text.allBlank] using hnext, hbefore, hbehind, ?_, ?_⟩
    · intro hmem
      exact hsingle (List.mem_append_left _ hmem)
    · intro hmem
      exact hsingle (by simp [show '\n' ∈ behind from hmem])
  exact ⟨c, hproper, by simp [c, Clause.written], by simp [c, Clause.position]⟩

/-- What stands in front of white space does not matter to the operators behind it, nor does which
white space it is. -/
theorem HasOperatorAt.behind {blank : Char} (h : HasOperatorAt (' ' :: t) position)
    (hblank : Text.isBlank blank = true) (front : Text) :
    HasOperatorAt (front ++ blank :: t) (front.length + position) := by
  obtain ⟨before, first, operator, next, behind, hfirst, hnext, heq, rfl⟩ := h
  cases before with
  | nil =>
    obtain ⟨-, rfl⟩ := List.cons.inj heq
    exact ⟨front, blank, operator, next, behind, hblank, hnext, rfl, rfl⟩
  | cons space more =>
    obtain ⟨-, rfl⟩ := List.cons.inj heq
    refine ⟨front ++ blank :: more, first, operator, next, behind, hfirst, hnext, ?_, ?_⟩
    · simp
    · simp [Nat.add_assoc]

theorem HasOperatorAt.pos (h : HasOperatorAt t position) : 0 < position := by
  obtain ⟨before, -, -, -, -, -, -, -, rfl⟩ := h
  exact Nat.succ_pos _

/-- A part that no operator stands in, also behind a space, is a target. -/
theorem IsPart.isTarget (h : IsPart t) (hnone : ∀ position, ¬ HasOperatorAt (' ' :: t) position) :
    IsTarget t where
  toIsPart := h
  no_operator := by
    rintro operator blank rest hblank rfl
    exact hnone 1 ⟨[], ' ', operator, blank, rest, by decide, hblank, rfl, rfl⟩
  no_clause := by
    intro position hclause
    obtain ⟨before, blank, operator, next, behind, hblank, hnext, rfl, -⟩ := hclause.hasOperatorAt
    exact hnone _ ⟨' ' :: before, blank, operator, next, behind, hblank, hnext, rfl, rfl⟩

end Operators

/-! ## The parts of a line without line feeds -/

section Parts

variable {line : Text} {c : Clause}

theorem Clause.IsProper.isPart_command (h : c.IsProper) (hs : IsTrimmed c.written) :
    IsPart (Text.trim c.command) where
  ne_nil := h.trim_command_ne_nil hs
  single hmem := h.command_single (Text.mem_of_mem_trim hmem)
  trimmed := Text.isTrimmed_trim c.command

theorem Clause.IsProper.isPart_target (h : c.IsProper) (hs : IsTrimmed c.written) :
    IsPart (Text.trim c.target) where
  ne_nil := h.trim_target_ne_nil hs
  single hmem := h.target_single (Text.mem_of_mem_trim hmem)
  trimmed := Text.isTrimmed_trim c.target

/-- Behind the last clause of a line without line feeds there is no operator between white space,
so that its target is one behind any operator. -/
theorem isTarget_of_last (h : c.IsProper) (hs : IsTrimmed c.written) (hsingle : '\n' ∉ c.written)
    (hlast : ∀ position, HasClauseAt c.written position → position ≤ c.position) :
    IsTarget (Text.trim c.target) := by
  refine (h.isPart_target hs).isTarget fun position hoperator => ?_
  -- the white space behind the operator of the clause, with that of the target
  obtain ⟨blanks, hblanks, htarget⟩ := Text.exists_append_trimStart c.target
  rw [← Clause.trim_target hs] at htarget
  obtain ⟨gap, blank, hgap, hblank⟩ :=
    Text.exists_concat_of_allBlank (Text.allBlank_append.mpr ⟨h.secondGap_blank, hblanks⟩)
      (List.append_ne_nil_of_left_ne_nil h.secondGap_ne_nil blanks)
  have hwritten : c.written =
      (c.command ++ c.gap ++ c.operator.written ++ gap) ++ blank :: Text.trim c.target := by
    have hgaps : c.secondGap ++ c.target = gap ++ blank :: Text.trim c.target := by
      rw [List.append_cons, ← hgap, List.append_assoc, htarget]
    simp only [Clause.written, List.append_assoc, hgaps]
  have hlater := hoperator.behind hblank (c.command ++ c.gap ++ c.operator.written ++ gap)
  rw [← hwritten, ← hasClauseAt_iff_hasOperatorAt hs hsingle] at hlater
  have hle := hlast _ hlater
  have hpos := hoperator.pos
  simp only [Clause.position, List.length_append] at hle
  omega

end Parts

/-! ## Splitting again -/

theorem written_redirected (command target : Text) {channel : Channel} {operator : Operator}
    (h : channel = .output → operator.channel = .output) :
    ∃ used : Operator, used.channel = channel ∧
      (redirected command channel target).written operator =
        command ++ ' ' :: (used.written ++ ' ' :: target) := by
  cases channel with
  | output => exact ⟨operator, h rfl, rfl⟩
  | error => exact ⟨.error, rfl, rfl⟩

@[simp] theorem isRedirected_redirected (command target : Text) (channel : Channel) :
    (redirected command channel target).isRedirected = true := by
  cases channel <;> rfl

/-- A split line without line feeds that is written out again is split as before. -/
theorem ofLine_written {line : Text} (hsingle : '\n' ∉ line) {operator : Operator}
    (houtput : operator.channel = .output) :
    ofLine ((ofLine line).written operator) = ofLine line := by
  have hs := Text.isTrimmed_trim line
  by_cases hclause : ∃ position, HasClauseAt (Text.trim line) position
  · obtain ⟨c, hproper, hwritten, hlast, hsplit⟩ := exists_last_clause hclause
    rw [← hwritten] at hs hlast
    have hsingle' : '\n' ∉ c.written := by
      rw [hwritten]
      exact fun hmem => hsingle (Text.mem_of_mem_trim hmem)
    have houtput' : c.operator.channel = .output → operator.channel = .output := fun _ => houtput
    obtain ⟨used, hchannel, hagain⟩ :=
      written_redirected (Text.trim c.command) (Text.trim c.target) houtput'
    rw [hsplit, Clause.split, hagain, ofLine_of_isTarget (hproper.isPart_command hs)
      (isTarget_of_last hproper hs hsingle' hlast), hchannel]
  · have hnone := fun position hat => hclause ⟨position, hat⟩
    rw [ofLine_of_no_clause hnone, written_plain]
    rw [← hs.trim_eq] at hnone
    rw [ofLine_of_no_clause hnone, hs.trim_eq]

theorem length_trim_le (t : Text) : (Text.trim t).length ≤ t.length := by
  obtain ⟨behind, -, ht⟩ := Text.exists_trim_append t
  have hlength := congrArg List.length ht
  rw [List.length_append, List.length_append] at hlength
  omega

/-- The lines that have a target are those with a clause. -/
theorem isRedirected_ofLine_iff {line : Text} :
    (ofLine line).isRedirected = true ↔ ∃ position, HasClauseAt (Text.trim line) position := by
  constructor
  · intro h
    by_cases hclause : ∃ position, HasClauseAt (Text.trim line) position
    · exact hclause
    · rw [ofLine_of_no_clause fun position hat => hclause ⟨position, hat⟩] at h
      exact absurd h (by simp [plain, isRedirected])
  · intro h
    obtain ⟨c, -, -, -, hsplit⟩ := exists_last_clause h
    rw [hsplit, Clause.split, isRedirected_redirected]

/-- The command of a redirected line is shorter than the line. -/
theorem length_command_lt {line : Text} (h : (ofLine line).isRedirected = true) :
    (ofLine line).command.length < line.length := by
  obtain ⟨c, hproper, hwritten, -, hsplit⟩ := exists_last_clause (isRedirected_ofLine_iff.mp h)
  have hposition := Clause.position_lt_length hproper
  rw [hwritten, Clause.position, List.length_append] at hposition
  rw [hsplit, Clause.split, command_redirected]
  have hcommand := length_trim_le c.command
  have hline := length_trim_le line
  omega

/-- **Splitting again** — the command of a line, the command of that, and so on. -/
def splitAgain : Nat → Text → Text
  | 0, line => line
  | n + 1, line => splitAgain n (ofLine line).command

/-- Once no clause is left, there will be none. -/
theorem no_clause_splitAgain {line : Text}
    (h : ∀ position, ¬ HasClauseAt (Text.trim line) position) (n : Nat) :
    ∀ position, ¬ HasClauseAt (Text.trim (splitAgain n line)) position := by
  induction n generalizing line with
  | zero => exact h
  | succ n ih =>
    rw [splitAgain, ofLine_of_no_clause h]
    refine ih ?_
    rwa [command_plain, (Text.isTrimmed_trim line).trim_eq]

/-- Splitting again comes to an end, since every split takes characters away. -/
theorem exists_splitAgain_settled (line : Text) :
    ∃ n ≤ line.length, (∀ k < n, (ofLine (splitAgain k line)).isRedirected = true) ∧
      ∀ k, n ≤ k → ∀ position, ¬ HasClauseAt (Text.trim (splitAgain k line)) position := by
  induction hlength : line.length using Nat.strongRecOn generalizing line with
  | ind length ih =>
    subst hlength
    by_cases h : (ofLine line).isRedirected = true
    · have hshorter := length_command_lt h
      obtain ⟨n, hn, hbefore, hafter⟩ := ih _ hshorter (ofLine line).command rfl
      refine ⟨n + 1, by omega, fun k hk => ?_, fun k hk => ?_⟩
      · cases k with
        | zero => exact h
        | succ k => exact hbefore k (by omega)
      · obtain ⟨k, rfl⟩ : ∃ m, k = m + 1 := ⟨k - 1, by omega⟩
        exact hafter k (by omega)
    · refine ⟨0, Nat.zero_le _, fun k hk => absurd hk (Nat.not_lt_zero k), fun k _ => ?_⟩
      refine no_clause_splitAgain (fun position hat => ?_) k
      exact h (isRedirected_ofLine_iff.mpr ⟨position, hat⟩)

/-- **Splitting settles** — for every line without line feeds. Written out again, with either
operator for an output target, a split line is split as before. The command of a redirected line
is shorter than the line. Splitting it again and again comes to a command without a clause, and
brings none about from there on. -/
theorem splitting_settles {line : Text} (h : '\n' ∉ line) :
    ofLine ((ofLine line).written .output) = ofLine line ∧
    ofLine ((ofLine line).written .numberedOutput) = ofLine line ∧
    ((ofLine line).isRedirected = true → (ofLine line).command.length < line.length) ∧
    ∃ n ≤ line.length, (∀ k < n, (ofLine (splitAgain k line)).isRedirected = true) ∧
      ∀ k, n ≤ k → ∀ position, ¬ HasClauseAt (Text.trim (splitAgain k line)) position :=
  ⟨ofLine_written h rfl, ofLine_written h rfl, length_command_lt, exists_splitAgain_settled line⟩

/-- A line with operators on both sides of the one that it is split at: the one in front of it is
followed by no text of its own, and the one behind it by no white space. -/
theorem splitting_settles_neighbours :
    let line : Text := " p > 2> \t1>\u3000  2>e  f > "
    '\n' ∉ line ∧ ofLine line = redirected "p > 2>" .output "2>e  f >" ∧
      ofLine "p > 2> 1> 2>e  f >" = ofLine line ∧ (ofLine line).command.length < line.length := by
  intro line
  have h : '\n' ∉ line := by decide
  have hline : ofLine line = redirected "p > 2>" .output "2>e  f >" := by decide +kernel
  obtain ⟨-, hagain, hshorter, -⟩ := splitting_settles h
  have hwritten : (ofLine line).written .numberedOutput = "p > 2> 1> 2>e  f >" := by
    rw [hline]
    decide
  rw [hwritten] at hagain
  exact ⟨h, hline, hagain, hshorter (by rw [hline]; rfl)⟩

end LineShell.CommandLine
