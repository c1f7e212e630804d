/-
# LineShell.Proofs.CommandLine.LastClause -- a line is split at its last clause

Splitting a line is told by its clauses alone (`ofLine_at_last_clause`): without a clause
the trimmed line is the command, and otherwise the command and the target are those of a
clause whose operator stands as far to the right as one can, trimmed.

Looking at one position finds the clauses that stand there (`clauseAt_eq_some_iff`). A
clause can be written in several ways with its operator at the same place, for the white
space around the command and the target may be counted to them or to the gaps; they all
come to the same split. The search begins at the end of the line, so that what it finds
behind a position is the last clause or none (`lastClause?_spec`).
-/

import LineShell.CommandLine.Clause
import LineShell.Proofs.Text.Trimmed

namespace LineShell.CommandLine

open Text (IsTrimmed)

/-! ## One position -/

/-- What an operator is made of. -/
theorem exists_operator_of_operator? {rest behind : Text} {channel : Channel}
    (h : operator? rest = some (channel, behind)) :
    ∃ operator : Operator, operator.channel = channel ∧ operator.written ++ behind = rest := by
  unfold operator? at h
  split at h
  · obtain ⟨rfl, rfl⟩ := Prod.mk.inj (Option.some.inj h)
    exact ⟨.output, rfl, rfl⟩
  · obtain ⟨rfl, rfl⟩ := Prod.mk.inj (Option.some.inj h)
    exact ⟨.numberedOutput, rfl, rfl⟩
  · obtain ⟨rfl, rfl⟩ := Prod.mk.inj (Option.some.inj h)
    exact ⟨.error, rfl, rfl⟩
  · simp at h

namespace Clause

variable {c : Clause}

theorem written_eq (c : Clause) :
    c.written = (c.command ++ c.gap) ++ (c.operator.written ++ (c.secondGap ++ c.target)) := by
  simp [written]

theorem trim_command (hs : IsTrimmed c.written) : Text.trim c.command = Text.trimEnd c.command := by
  rw [written_eq, List.append_assoc] at hs
  exact hs.trim_left

theorem trim_target (hs : IsTrimmed c.written) : Text.trim c.target = Text.trimStart c.target := by
  rw [written] at hs
  exact hs.trim_right

/-- The operator stands inside the line. -/
theorem position_lt_length (h : c.IsProper) : c.position < c.written.length := by
  have htarget : 0 < c.target.length := List.length_pos_iff.mpr h.target_ne_nil
  simp only [position, written, List.length_append]
  omega

namespace IsProper

/-- A clause of a trimmed line keeps something of its command and of its target. -/
theorem trim_command_ne_nil (h : c.IsProper) (hs : IsTrimmed c.written) :
    Text.trim c.command ≠ [] := by
  rw [written_eq, List.append_assoc] at hs
  exact hs.trim_left_ne_nil h.command_ne_nil

theorem trim_target_ne_nil (h : c.IsProper) (hs : IsTrimmed c.written) :
    Text.trim c.target ≠ [] := by
  rw [written] at hs
  exact hs.trim_right_ne_nil h.target_ne_nil

/-- A clause of a trimmed line is found where its operator stands. -/
theorem clauseAt_eq (h : c.IsProper) (hs : IsTrimmed c.written) :
    clauseAt (c.command ++ c.gap).reverse (c.operator.written ++ (c.secondGap ++ c.target)) =
      some c.split := by
  have hcommand := h.trim_command_ne_nil hs
  have htarget := h.trim_target_ne_nil hs
  rw [trim_command hs] at hcommand
  rw [trim_target hs] at htarget
  rw [clauseAt_written h hcommand htarget, split, trim_command hs, trim_target hs]

end IsProper
end Clause

/-- What is found at a position is a clause of the line. -/
theorem exists_clause_of_clauseAt {before rest : Text} {found : CommandLine}
    (hs : IsTrimmed (before.reverse ++ rest)) (h : clauseAt before rest = some found) :
    ∃ c : Clause, c.IsProper ∧ c.command ++ c.gap = before.reverse ∧
      c.operator.written ++ (c.secondGap ++ c.target) = rest ∧ found = c.split := by
  unfold clauseAt at h
  split at h
  · rename_i blank others channel next more hoperator
    dsimp only at h
    split at h
    · rename_i hfound
      obtain ⟨hblank, hnext, hcommand, htarget, hsingle, hsingle'⟩ := hfound
      obtain ⟨operator, rfl, hrest⟩ := exists_operator_of_operator? hoperator
      let c : Clause :=
        ⟨((blank :: others).dropWhile Text.isBlank).reverse,
          ((blank :: others).takeWhile Text.isBlank).reverse, operator,
          (next :: more).takeWhile Text.isBlank, (next :: more).dropWhile Text.isBlank⟩
      have hbefore : c.command ++ c.gap = (blank :: others).reverse := by
        rw [← List.reverse_append, List.takeWhile_append_dropWhile]
      have hbehind : c.operator.written ++ (c.secondGap ++ c.target) = rest := by
        rw [List.takeWhile_append_dropWhile, hrest]
      have hwritten : IsTrimmed c.written := by
        rwa [Clause.written_eq, hbefore, hbehind]
      have hproper : c.IsProper := by
        refine ⟨?_, ?_, ?_, List.all_takeWhile, hcommand, htarget, hsingle, hsingle'⟩
        · simp [c, hblank]
        · simp [c, Text.allBlank]
        · simp [c, hnext]
      refine ⟨c, hproper, hbefore, hbehind, ?_⟩
      -- both ends are already trimmed, so the split of this clause is what was found
      have hagain := hproper.clauseAt_eq hwritten
      rw [hbefore, hbehind, List.reverse_reverse] at hagain
      simp only [clauseAt, hoperator] at hagain
      rw [if_pos ⟨hblank, hnext, hcommand, htarget, hsingle, hsingle'⟩] at hagain
      rw [← Option.some.inj h]
      exact Option.some.inj hagain
    · simp at h
  · simp at h

/-- **One position** — what is found there is the split of the clauses that stand there. -/
theorem clauseAt_eq_some_iff {s before rest : Text} {found : CommandLine} (hs : IsTrimmed s)
    (hline : before.reverse ++ rest = s) :
    clauseAt before rest = some found ↔
      ∃ c : Clause, c.IsProper ∧ c.written = s ∧ c.position = before.length ∧ found = c.split := by
  constructor
  · intro h
    obtain ⟨c, hproper, hbefore, hbehind, hfound⟩ :=
      exists_clause_of_clauseAt (hline.symm ▸ hs) h
    refine ⟨c, hproper, ?_, ?_, hfound⟩
    · rw [Clause.written_eq, hbefore, hbehind, hline]
    · rw [Clause.position, hbefore, List.length_reverse]
  · rintro ⟨c, hproper, hwritten, hposition, rfl⟩
    -- the operator stands at the position, so the line is cut there in the same two parts
    rw [← hline, Clause.written_eq] at hwritten
    obtain ⟨hbefore, hbehind⟩ := List.append_inj hwritten (by
      rw [List.length_reverse, ← hposition, Clause.position])
    rw [← List.reverse_reverse before, ← hbefore, ← hbehind]
    refine hproper.clauseAt_eq ?_
    rwa [Clause.written_eq, hwritten, hline]

/-- Where a trimmed line has clauses can be computed. -/
theorem hasClauseAt_iff {s : Text} (hs : IsTrimmed s) {position : Nat} :
    HasClauseAt s position ↔ position < s.length ∧
      (clauseAt (s.take position).reverse (s.drop position)).isSome := by
  have hline : (s.take position).reverse.reverse ++ s.drop position = s := by
    rw [List.reverse_reverse, List.take_append_drop]
  constructor
  · rintro ⟨c, hproper, hwritten, rfl⟩
    have hlt := Clause.position_lt_length hproper
    rw [hwritten] at hlt
    refine ⟨hlt, Option.isSome_iff_exists.mpr ⟨c.split, ?_⟩⟩
    refine (clauseAt_eq_some_iff hs hline).mpr ⟨c, hproper, hwritten, ?_, rfl⟩
    rw [List.length_reverse, List.length_take_of_le (Nat.le_of_lt hlt)]
  · rintro ⟨hlt, hfound⟩
    obtain ⟨found, hfound⟩ := Option.isSome_iff_exists.mp hfound
    obtain ⟨c, hproper, hwritten, hposition, -⟩ := (clauseAt_eq_some_iff hs hline).mp hfound
    rw [List.length_reverse, List.length_take_of_le (Nat.le_of_lt hlt)] at hposition
    exact ⟨c, hproper, hwritten, hposition⟩

/-! ## All positions -/

/-- **The last clause** of a line from a position on: there is none, or what was found is
the split of a clause that no other one stands behind. -/
def IsLastFrom (s : Text) (start : Nat) : Option CommandLine → Prop
  | none => ∀ position, start ≤ position → ¬ HasClauseAt s position
  | some found => ∃ c : Clause, c.IsProper ∧ c.written = s ∧ start ≤ c.position ∧
      (∀ position, HasClauseAt s position → position ≤ c.position) ∧ found = c.split

/-- The search finds the last clause behind the part of the line that it leaves out. -/
theorem lastClause?_spec {s before rest : Text} (hs : IsTrimmed s)
    (hline : before.reverse ++ rest = s) : IsLastFrom s before.length (lastClause? before rest) := by
  induction rest generalizing before with
  | nil =>
    rintro position hstart ⟨c, hproper, rfl, rfl⟩
    have hlt := Clause.position_lt_length hproper
    rw [← hline, List.append_nil, List.length_reverse] at hlt
    omega
  | cons d rest ih =>
    have hbehind := @ih (d :: before) (by simpa using hline)
    rw [List.length_cons] at hbehind
    unfold lastClause?
    split
    · -- a clause further on is the last one from here, too
      rename_i found hfound
      rw [hfound] at hbehind
      obtain ⟨c, hproper, hwritten, hstart, hlast, hsplit⟩ := hbehind
      exact ⟨c, hproper, hwritten, by omega, hlast, hsplit⟩
    · rename_i hnone
      rw [hnone] at hbehind
      rcases hhere : clauseAt before (d :: rest) with _ | found
      · rintro position hstart hclause
        rcases Nat.eq_or_lt_of_le hstart with rfl | hlt
        · obtain ⟨c, hproper, hwritten, hposition⟩ := hclause
          have hfound := (clauseAt_eq_some_iff hs hline).mpr
            ⟨c, hproper, hwritten, hposition, rfl⟩
          rw [hhere] at hfound
          exact absurd hfound (by simp)
        · exact hbehind position hlt hclause
      · obtain ⟨c, hproper, hwritten, hposition, hsplit⟩ :=
          (clauseAt_eq_some_iff hs hline).mp hhere
        refine ⟨c, hproper, hwritten, by omega, fun position hclause => ?_, hsplit⟩
        refine Nat.le_of_not_lt fun hlater => ?_
        exact hbehind position (by omega) hclause

/-! ## The split of a line -/

theorem lastClause?_trim_spec (line : Text) :
    IsLastFrom (Text.trim line) 0 (lastClause? [] (Text.trim line)) :=
  lastClause?_spec (Text.isTrimmed_trim line) (List.nil_append _)

/-- What a trimmed line is split into, if it has no clause. -/
theorem ofLine_of_no_clause {line : Text}
    (h : ∀ position, ¬ HasClauseAt (Text.trim line) position) :
    ofLine line = plain (Text.trim line) := by
  have hspec := lastClause?_trim_spec line
  unfold ofLine
  dsimp only
  rcases hlast : lastClause? [] (Text.trim line) with _ | found
  · rfl
  · rw [hlast] at hspec
    obtain ⟨c, hproper, hwritten, -, -, -⟩ := hspec
    exact absurd ⟨c, hproper, hwritten, rfl⟩ (h c.position)

/-- What a line is split into, if it has a clause. -/
theorem exists_last_clause {line : Text}
    (h : ∃ position, HasClauseAt (Text.trim line) position) :
    ∃ c : Clause, c.IsProper ∧ c.written = Text.trim line ∧
      (∀ position, HasClauseAt (Text.trim line) position → position ≤ c.position) ∧
      ofLine line = c.split := by
  have hspec := lastClause?_trim_spec line
  unfold ofLine
  dsimp only
  rcases hlast : lastClause? [] (Text.trim line) with _ | found
  · rw [hlast] at hspec
    obtain ⟨position, hclause⟩ := h
    exact absurd hclause (hspec position (Nat.zero_le position))
  · rw [hlast] at hspec
    obtain ⟨c, hproper, hwritten, -, hrightmost, rfl⟩ := hspec
    exact ⟨c, hproper, hwritten, hrightmost, rfl⟩

/-- Clauses of a trimmed line with their operators at the same place come to the same. -/
theorem split_eq_of_position_eq {s : Text} (hs : IsTrimmed s) {c d : Clause} (hc : c.IsProper)
    (hd : d.IsProper) (hcs : c.written = s) (hds : d.written = s)
    (hposition : c.position = d.position) : c.split = d.split := by
  have hline : (d.command ++ d.gap).reverse.reverse ++
      (d.operator.written ++ (d.secondGap ++ d.target)) = s := by
    rw [List.reverse_reverse, ← Clause.written_eq, hds]
  have hfound := (clauseAt_eq_some_iff hs hline).mpr ⟨c, hc, hcs, by
    rw [List.length_reverse, hposition, Clause.position], rfl⟩
  rw [hd.clauseAt_eq (hds.symm ▸ hs)] at hfound
  exact (Option.some.inj hfound).symm

/-- What a line is split into, if no clause stands behind a given one. -/
theorem ofLine_of_last_clause {line : Text} {c : Clause} (hproper : c.IsProper)
    (hwritten : c.written = Text.trim line)
    (hlast : ∀ position, HasClauseAt (Text.trim line) position → position ≤ c.position) :
    ofLine line = c.split := by
  obtain ⟨d, hproper', hwritten', hlast', hsplit⟩ :=
    exists_last_clause ⟨c.position, c, hproper, hwritten, rfl⟩
  have hposition : d.position = c.position :=
    Nat.le_antisymm (hlast _ ⟨d, hproper', hwritten', rfl⟩) (hlast' _ ⟨c, hproper, hwritten, rfl⟩)
  rw [hsplit]
  exact split_eq_of_position_eq (Text.isTrimmed_trim line) hproper' hproper hwritten' hwritten
    hposition

/-! ## Lines that are put together -/

/-- **Part** — a text that can stand on one side of an operator and is not changed by it. -/
structure IsPart (t : Text) : Prop where
  ne_nil : t ≠ []
  single : '\n' ∉ t
  trimmed : IsTrimmed t

/-- **Target** — a text behind an operator that no other operator can be read into: it does
not begin with one that white space follows, and has no clause of its own. -/
structure IsTarget (t : Text) : Prop extends IsPart t where
  no_operator : ∀ (operator : Operator) (blank : Char) (rest : Text), Text.isBlank blank = true →
    t ≠ operator.written ++ blank :: rest
  no_clause : ∀ position, ¬ HasClauseAt t position

/-- A text without white space is a target. -/
theorem isTarget_of_not_blank {t : Text} (hne : t ≠ []) (h : ∀ c ∈ t, Text.isBlank c = false) :
    IsTarget t where
  ne_nil := hne
  single := by
    intro hmem
    exact absurd (h _ hmem) (by decide)
  trimmed := ⟨fun c hc => h c (List.mem_of_mem_head? hc), fun c hc => h c (List.mem_of_getLast? hc)⟩
  no_operator := by
    rintro operator blank rest hblank rfl
    exact absurd (h blank (by simp)) (by simp [hblank])
  no_clause := by
    rintro position ⟨c, hproper, rfl, -⟩
    -- the gap in front of an operator is white space
    obtain ⟨blank, more, hgap⟩ := List.exists_cons_of_ne_nil hproper.gap_ne_nil
    have hblank : Text.isBlank blank = true :=
      List.all_eq_true.mp hproper.gap_blank _ (by simp [hgap])
    exact absurd (h blank (by simp [Clause.written, hgap])) (by simp [hblank])

theorem not_mem_written_of_isBlank {blank : Char} (h : Text.isBlank blank = true)
    (operator : Operator) : blank ∉ operator.written := by
  have hvisible : operator.written.all (! Text.isBlank ·) = true := by cases operator <;> decide
  intro hmem
  have hblank := List.all_eq_true.mp hvisible blank hmem
  rw [h] at hblank
  exact absurd hblank (by simp)

/-- Behind a space, no operator with white space around it stands in a target. -/
theorem IsTarget.cons_ne_append {target : Text} (h : IsTarget target) {c : Clause}
    (hproper : c.IsProper) {before : Text} {blank : Char} (hblank : Text.isBlank blank = true) :
    ' ' :: target ≠ before ++ blank :: (c.operator.written ++ (c.secondGap ++ c.target)) := by
  intro heq
  cases before with
  | nil =>
    -- the operator begins the target
    obtain ⟨next, more, hsecond⟩ := List.exists_cons_of_ne_nil hproper.secondGap_ne_nil
    have hnext : Text.isBlank next = true :=
      List.all_eq_true.mp hproper.secondGap_blank _ (by simp [hsecond])
    refine h.no_operator c.operator next (more ++ c.target) hnext ?_
    rw [(List.cons.inj heq).2, hsecond, List.cons_append]
  | cons space command =>
    -- the operator stands further on, and what is in front of it is a command
    have htarget : target = command ++ blank :: (c.operator.written ++ (c.secondGap ++ c.target)) :=
      (List.cons.inj heq).2
    have hsingle : '\n' ∉ command ∧ '\n' ∉ c.target := by
      have hall := h.single
      simp only [htarget, List.mem_append, List.mem_cons, not_or] at hall
      exact ⟨hall.1, hall.2.2.2.2⟩
    have hcommand : command ≠ [] := by
      rintro rfl
      rw [h.trimmed.head blank (by rw [htarget]; rfl)] at hblank
      exact absurd hblank (by simp)
    let d : Clause := ⟨command, [blank], c.operator, c.secondGap, c.target⟩
    have hd : d.IsProper :=
      ⟨by simp [d], by simpa [d, Text.allBlank] using hblank, hproper.secondGap_ne_nil,
        hproper.secondGap_blank, hcommand, hproper.target_ne_nil, hsingle.1, hsingle.2⟩
    refine h.no_clause d.position ⟨d, hd, ?_, rfl⟩
    rw [Clause.written_eq, htarget]
    simp [d]

/-- A line that is put together from a command and a target is split into them again. The
command may hold clauses of its own. -/
theorem ofLine_of_isTarget {command target : Text} (hcommand : IsPart command)
    (htarget : IsTarget target) (operator : Operator) :
    ofLine (command ++ ' ' :: (operator.written ++ ' ' :: target)) =
      redirected command operator.channel target := by
  let c : Clause := ⟨command, [' '], operator, [' '], target⟩
  have hspace : Text.allBlank [' '] = true := by decide
  have hproper : c.IsProper :=
    ⟨by simp [c], hspace, by simp [c], hspace, hcommand.ne_nil, htarget.ne_nil, hcommand.single,
      htarget.single⟩
  have hwritten : c.written = command ++ ' ' :: (operator.written ++ ' ' :: target) := by
    simp [c, Clause.written]
  have htrimmed : IsTrimmed (command ++ ' ' :: (operator.written ++ ' ' :: target)) := by
    simpa using hcommand.trimmed.append htarget.trimmed hcommand.ne_nil htarget.ne_nil
      (' ' :: (operator.written ++ [' ']))
  have hsplit : c.split = redirected command operator.channel target := by
    simp only [c, Clause.split, hcommand.trimmed.trim_eq, htarget.trimmed.trim_eq]
  rw [← hsplit]
  refine ofLine_of_last_clause hproper (by rw [hwritten, htrimmed.trim_eq]) ?_
  rw [htrimmed.trim_eq]
  rintro position ⟨d, hd, hdwritten, rfl⟩
  refine Nat.le_of_not_lt fun hlater => ?_
  -- an operator further on has white space in front of it, which is none of this operator
  obtain ⟨gap, blank, hgap⟩ := (List.eq_nil_or_concat d.gap).resolve_left hd.gap_ne_nil
  have hblank : Text.isBlank blank = true :=
    List.all_eq_true.mp hd.gap_blank _ (by simp [hgap])
  let behind := d.operator.written ++ (d.secondGap ++ d.target)
  have hcut : (d.command ++ gap) ++ blank :: behind =
      (command ++ [' ']) ++ (operator.written ++ ' ' :: target) := by
    have hline := hdwritten
    rw [Clause.written_eq, hgap] at hline
    simpa [behind] using hline
  obtain ⟨between, hbetween⟩ : command ++ [' '] <+: d.command ++ gap := by
    refine List.prefix_of_prefix_length_le (List.prefix_append _ _)
      ⟨blank :: behind, hcut⟩ ?_
    simp only [Clause.position, c, hgap, List.concat_eq_append, List.length_append,
      List.length_cons, List.length_nil] at hlater ⊢
    omega
  rw [← hbetween, List.append_assoc, List.append_cancel_left_eq] at hcut
  rcases List.append_eq_append_iff.mp hcut with ⟨_ | ⟨other, rest⟩, hwhole, hrest⟩ | ⟨rest, -, hrest⟩
  · exact htarget.cons_ne_append hd hblank (show _ = [] ++ blank :: behind from hrest.symm)
  · obtain rfl : blank = other := (List.cons.inj hrest).1
    exact not_mem_written_of_isBlank hblank operator (by simp [hwhole])
  · exact htarget.cons_ne_append hd hblank hrest

@[simp] theorem command_plain (command : Text) : (plain command).command = command := rfl

@[simp] theorem command_redirected (command target : Text) (channel : Channel) :
    (redirected command channel target).command = command := by
  cases channel <;> rfl

/-- The target of a split line, on whichever channel. -/
theorem eq_target_of_redirected {command target other : Text} {channel : Channel}
    (h : (redirected command channel target).output = some other ∨
      (redirected command channel target).error = some other) : other = target := by
  cases channel with
  | output =>
    rcases h with h | h
    · exact (Option.some.inj h).symm
    · simp [redirected] at h
  | error =>
    rcases h with h | h
    · simp [redirected] at h
    · exact (Option.some.inj h).symm

/-- The target of a command line that has one at most. -/
def target? (line : CommandLine) : Option Text := line.output.or line.error

/-- The target of a line is made of characters of the line. -/
theorem mem_of_mem_target {line path : Text} {c : Char}
    (htarget : (ofLine line).target? = some path) (h : c ∈ path) : c ∈ line := by
  by_cases hclause : ∃ position, HasClauseAt (Text.trim line) position
  · obtain ⟨clause, -, hwritten, -, hsplit⟩ := exists_last_clause hclause
    rw [hsplit, Clause.split] at htarget
    have hpath : path = Text.trim clause.target := by
      cases hchannel : clause.operator.channel <;> rw [hchannel] at htarget <;>
        exact (Option.some.inj htarget).symm
    have hmem : c ∈ clause.written := by
      rw [Clause.written_eq]
      simp [Text.mem_of_mem_trim (hpath ▸ h)]
    exact Text.mem_of_mem_trim (hwritten ▸ hmem)
  · rw [ofLine_of_no_clause fun position hat => hclause ⟨position, hat⟩] at htarget
    exact absurd htarget (by simp [target?, plain])

/-- The command of a line is made of characters of the line. -/
theorem mem_of_mem_command {line : Text} {c : Char} (h : c ∈ (ofLine line).command) :
    c ∈ line := by
  by_cases hclause : ∃ position, HasClauseAt (Text.trim line) position
  · obtain ⟨clause, -, hwritten, -, hsplit⟩ := exists_last_clause hclause
    rw [hsplit, Clause.split, command_redirected] at h
    have hmem : c ∈ clause.written := by
      rw [Clause.written_eq]
      simp [Text.mem_of_mem_trim h]
    exact Text.mem_of_mem_trim (hwritten ▸ hmem)
  · rw [ofLine_of_no_clause fun position hat => hclause ⟨position, hat⟩] at h
    exact Text.mem_of_mem_trim h

/-- **Splitting a line** — without a clause the trimmed line is the command. Otherwise the
command and the target are those of a clause that no other one stands behind, trimmed,
however that clause is written, and there is such a clause. The command is always trimmed;
with a target, both are trimmed and neither is empty. -/
theorem ofLine_at_last_clause (line : Text) :
    let s := Text.trim line
    ((∀ position, ¬ HasClauseAt s position) → ofLine line = plain s) ∧
    (∀ c : Clause, c.IsProper → c.written = s →
      (∀ position, HasClauseAt s position → position ≤ c.position) →
      ofLine line =
        redirected (Text.trim c.command) c.operator.channel (Text.trim c.target)) ∧
    ((∃ position, HasClauseAt s position) →
      ∃ c : Clause, c.IsProper ∧ c.written = s ∧
        ∀ position, HasClauseAt s position → position ≤ c.position) ∧
    IsTrimmed (ofLine line).command ∧
    ∀ target, (ofLine line).output = some target ∨ (ofLine line).error = some target →
      (ofLine line).command ≠ [] ∧ target ≠ [] ∧ IsTrimmed target := by
  intro s
  refine ⟨ofLine_of_no_clause, fun c => ofLine_of_last_clause, ?_, ?_, ?_⟩
  · intro h
    obtain ⟨c, hproper, hwritten, hlast, -⟩ := exists_last_clause h
    exact ⟨c, hproper, hwritten, hlast⟩
  · by_cases h : ∃ position, HasClauseAt s position
    · obtain ⟨c, -, -, -, hsplit⟩ := exists_last_clause h
      rw [hsplit, Clause.split, command_redirected]
      exact Text.isTrimmed_trim c.command
    · rw [ofLine_of_no_clause fun position hclause => h ⟨position, hclause⟩]
      exact Text.isTrimmed_trim line
  · intro target htarget
    by_cases h : ∃ position, HasClauseAt s position
    · obtain ⟨c, hproper, hwritten, -, hsplit⟩ := exists_last_clause h
      have hs : IsTrimmed c.written := hwritten.symm ▸ Text.isTrimmed_trim line
      rw [hsplit] at htarget ⊢
      rw [eq_target_of_redirected htarget, Clause.split, command_redirected]
      exact ⟨hproper.trim_command_ne_nil hs, hproper.trim_target_ne_nil hs,
        Text.isTrimmed_trim c.target⟩
    · rw [ofLine_of_no_clause fun position hclause => h ⟨position, hclause⟩] at htarget
      simp [plain] at htarget

/-- A line with three operators: a line feed stands in front of the last one, so that the
clause begins at the second, and the line feed is in its gap. -/
theorem ofLine_at_last_clause_gap :
    let line : Text := "\ta > \n> b 2> c "
    let c : Clause := ⟨"a >", " \n", .output, " ", "b 2> c"⟩
    c.IsProper ∧ c.written = Text.trim line ∧
      (∀ position, HasClauseAt (Text.trim line) position → position ≤ c.position) ∧
      ofLine line = redirected "a >" .output "b 2> c" := by
  intro line c
  have hproper : c.IsProper := by constructor <;> decide
  have hwritten : c.written = Text.trim line := by decide
  have hcomputed : ∀ position < (Text.trim line).length,
      (clauseAt ((Text.trim line).take position).reverse
        ((Text.trim line).drop position)).isSome → position ≤ c.position := by
    decide +kernel
  have hlast : ∀ position, HasClauseAt (Text.trim line) position → position ≤ c.position := by
    intro position hclause
    obtain ⟨hlt, hfound⟩ := (hasClauseAt_iff (Text.isTrimmed_trim line)).mp hclause
    exact hcomputed position hlt hfound
  refine ⟨hproper, hwritten, hlast, ?_⟩
  exact (ofLine_at_last_clause line).2.1 c hproper hwritten hlast

end LineShell.CommandLine
