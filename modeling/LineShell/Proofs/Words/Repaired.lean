/-
# LineShell.Proofs.Words.Repaired -- a line that breaks off means what its repair means

No line is refused. A line may leave a quotation open, and it may end in a backslash that
waits for its character. `repaired` adds what such a line lacks, and this module says that
nothing else happens: the repaired line has the same words, it is made of spellings, and no
shorter addition makes it so (`repair_keeps_words`).

A line is well formed if it is made of spellings. The scanner can tell: a line is well formed
exactly if the scanner is outside quotes behind it (`isWellFormed_iff`). In one direction,
every segment takes the scanner back to where it was. In the other, a scanner that comes out
of a segment has read its last character (`exists_finishes`), so that the segments of a line
can be cut off at its front, one after the other.
-/

import LineShell.Words.Spelling

namespace LineShell

/-- **Well formed** — the line is made of spellings. -/
def IsWellFormed (line : Text) : Prop := ∃ spellings, Spells spellings line

/-! ## What is added at the end -/

/-- What a line lacks adds to the last word what the end of the line adds by itself. -/
theorem scan_closing (m : Mode) : scan m m.closing = scan m [] := by
  cases m <;> rfl

theorem scan_append_closing (m : Mode) (t : Text) :
    scan m (t ++ (m.after t).closing) = scan m t := by
  induction t generalizing m with
  | nil => exact scan_closing m
  | cons c rest ih =>
    show scan m (c :: (rest ++ ((m.next c).after rest).closing)) = scan m (c :: rest)
    rw [scan, scan, ih (m.next c)]

/-- No fewer characters than a line lacks bring the scanner out of all quotes. -/
theorem length_closing_le {m : Mode} {more : Text} (h : m.after more = .bare) :
    m.closing.length ≤ more.length := by
  have hne : m ≠ .bare → more ≠ [] := by
    rintro hm rfl
    exact hm h
  cases m with
  | bare => exact Nat.zero_le _
  | escaped | single | double =>
    show 1 ≤ more.length
    apply List.length_pos_iff.mpr
    apply hne
    decide
  | doubleEscaped =>
    show 2 ≤ more.length
    obtain ⟨c, rest, rfl⟩ := List.exists_cons_of_ne_nil (hne (by decide))
    -- the first character only ends the escape
    have hrest : rest ≠ [] := by
      rintro rfl
      exact absurd h (by simp [Mode.next])
    have hpos := List.length_pos_iff.mpr hrest
    rw [List.length_cons]
    omega

/-! ## Spellings leave the scanner outside quotes -/

theorem after_item (item : Item) : Mode.double.after item.written = .double := by
  cases item with
  | plain c h => simp [Item.written, Mode.next, h.1, h.2]
  | escape c => rfl

theorem after_items (items : List Item) :
    Mode.double.after (items.flatMap Item.written) = .double := by
  induction items with
  | nil => rfl
  | cons item rest ih => rw [List.flatMap_cons, Mode.after_append, after_item, ih]

theorem after_text_in_single {text : Text} (h : '\x27' ∉ text) :
    Mode.single.after text = .single := by
  induction text with
  | nil => rfl
  | cons c rest ih =>
    rw [List.mem_cons, not_or] at h
    have hc : Mode.single.next c = .single := if_neg (Ne.symm h.1)
    rw [Mode.after_cons, hc, ih h.2]

theorem after_segment (segment : Segment) : Mode.bare.after segment.written = .bare := by
  cases segment with
  | bare c h => simp [Segment.written, Mode.next, h]
  | escaped c => rfl
  | single text h =>
    show Mode.single.after (text ++ ['\x27']) = .bare
    rw [Mode.after_append, after_text_in_single h]
    rfl
  | double items =>
    show Mode.double.after (items.flatMap Item.written ++ ['\x22']) = .bare
    rw [Mode.after_append, after_items]
    rfl

theorem after_spelling (word : Spelling) : Mode.bare.after word.written = .bare := by
  induction word with
  | nil => rfl
  | cons segment rest ih =>
    show Mode.bare.after (segment.written ++ Spelling.written rest) = .bare
    rw [Mode.after_append, after_segment, ih]

/-- A line that is made of spellings leaves no quotation open and no backslash waiting. -/
theorem after_of_spells {spellings : List Spelling} {line : Text} (h : Spells spellings line) :
    Mode.bare.after line = .bare := by
  induction h with
  | nil => rfl
  | space _ ih => exact ih
  | last _ => exact after_spelling _
  | word _ _ ih =>
    rw [Mode.after_append, after_spelling]
    exact ih

/-! ## A scanner outside quotes has read spellings -/

/-- **Finishes** — the text is what is left of a segment that the scanner is in, up to the
segment's last character. -/
inductive Mode.Finishes : Mode → Text → Prop
  | bare : Finishes .bare []
  | escaped (c : Char) : Finishes .escaped [c]
  | single (text : Text) (closed : '\x27' ∉ text) : Finishes .single (text ++ ['\x27'])
  | double (items : List Item) :
      Finishes .double (items.flatMap Item.written ++ ['\x22'])
  | doubleEscaped (c : Char) (items : List Item) :
      Finishes .doubleEscaped (c :: (items.flatMap Item.written ++ ['\x22']))

/-- A scanner that comes to be outside quotes first comes out of the segment it is in. -/
theorem exists_finishes {m : Mode} {t : Text} (h : m.after t = .bare) :
    ∃ front behind, t = front ++ behind ∧ m.Finishes front ∧ Mode.bare.after behind = .bare := by
  induction t generalizing m with
  | nil =>
    obtain rfl : m = .bare := h
    exact ⟨[], [], rfl, .bare, rfl⟩
  | cons c rest ih =>
    rw [Mode.after_cons] at h
    cases m with
    | bare => exact ⟨[], c :: rest, rfl, .bare, h⟩
    | escaped => exact ⟨[c], rest, rfl, .escaped c, h⟩
    | single =>
      by_cases hc : c = '\x27'
      · subst hc
        exact ⟨['\x27'], rest, rfl, .single [] (by simp), h⟩
      · have hnext : Mode.single.next c = .single := if_neg hc
        obtain ⟨front, behind, rfl, hfront, hbehind⟩ := ih (hnext ▸ h)
        cases hfront with
        | single text hclosed =>
          have hmore : '\x27' ∉ c :: text := by simp [Ne.symm hc, hclosed]
          exact ⟨_, behind, rfl, .single (c :: text) hmore, hbehind⟩
    | double =>
      by_cases hbackslash : c = '\\'
      · subst hbackslash
        obtain ⟨front, behind, rfl, hfront, hbehind⟩ := ih (m := .doubleEscaped) h
        cases hfront with
        | doubleEscaped d items => exact ⟨_, behind, rfl, .double (.escape d :: items), hbehind⟩
      · by_cases hmark : c = '\x22'
        · subst hmark
          exact ⟨['\x22'], rest, rfl, .double [], h⟩
        · have hnext : Mode.double.next c = .double := by
            simp [Mode.next, hbackslash, hmark]
          obtain ⟨front, behind, rfl, hfront, hbehind⟩ := ih (hnext ▸ h)
          cases hfront with
          | double items =>
            exact ⟨_, behind, rfl, .double (.plain c ⟨hmark, hbackslash⟩ :: items), hbehind⟩
    | doubleEscaped =>
      obtain ⟨front, behind, rfl, hfront, hbehind⟩ := ih (m := .double) h
      cases hfront with
      | double items => exact ⟨_, behind, rfl, .doubleEscaped c items, hbehind⟩

/-- What begins with anything but a space begins with a segment. -/
theorem exists_segment {c : Char} {rest : Text} (hc : c ≠ ' ')
    (h : Mode.bare.after (c :: rest) = .bare) :
    ∃ (segment : Segment) (behind : Text),
      c :: rest = segment.written ++ behind ∧ Mode.bare.after behind = .bare := by
  obtain ⟨front, behind, rfl, hfront, hbehind⟩ := exists_finishes (m := Mode.bare.next c) h
  suffices hsegment : ∃ segment : Segment, segment.written = c :: front by
    obtain ⟨segment, hwritten⟩ := hsegment
    exact ⟨segment, behind, by rw [hwritten]; rfl, hbehind⟩
  -- the first character says which segment it is
  by_cases hbackslash : c = '\\'
  · subst hbackslash
    cases (hfront : Mode.escaped.Finishes front) with
    | escaped d => exact ⟨.escaped d, rfl⟩
  · by_cases hsingle : c = '\x27'
    · subst hsingle
      cases (hfront : Mode.single.Finishes front) with
      | single text hclosed => exact ⟨.single text hclosed, rfl⟩
    · by_cases hdouble : c = '\x22'
      · subst hdouble
        cases (hfront : Mode.double.Finishes front) with
        | double items => exact ⟨.double items, rfl⟩
      · have hnext : Mode.bare.next c = .bare := by
          simp [Mode.next, hbackslash, hsingle, hdouble]
        cases (hnext ▸ hfront : Mode.bare.Finishes front) with
        | bare => exact ⟨.bare c ⟨hc, hsingle, hdouble, hbackslash⟩, rfl⟩

/-- A segment in front of a line that is made of spellings belongs to its first word, or is a
word of its own in front of a space. -/
theorem IsWellFormed.segment_append {line : Text} (h : IsWellFormed line) (segment : Segment) :
    IsWellFormed (segment.written ++ line) := by
  have hsingle : Spelling.written [segment] = segment.written := List.append_nil _
  obtain ⟨spellings, hspells⟩ := h
  cases hspells with
  | nil =>
    refine ⟨[[segment]], ?_⟩
    rw [List.append_nil, ← hsingle]
    exact .last (List.cons_ne_nil _ _)
  | space hrest =>
    refine ⟨[segment] :: spellings, ?_⟩
    rw [← hsingle]
    exact .word (List.cons_ne_nil _ _) hrest
  | @last word _ => exact ⟨[segment :: word], .last (List.cons_ne_nil _ _)⟩
  | @word word others line _ hrest =>
    refine ⟨(segment :: word) :: others, ?_⟩
    rw [← List.append_assoc]
    exact .word (List.cons_ne_nil _ _) hrest

theorem isWellFormed_of_after {line : Text} (h : Mode.bare.after line = .bare) :
    IsWellFormed line := by
  -- the induction is on the length: a segment can be of any length
  induction hn : line.length using Nat.strongRecOn generalizing line with
  | ind n ih =>
    subst hn
    cases line with
    | nil => exact ⟨[], .nil⟩
    | cons c rest =>
      by_cases hc : c = ' '
      · subst hc
        have hrest : Mode.bare.after rest = .bare := h
        obtain ⟨spellings, hspells⟩ := ih rest.length (Nat.lt_succ_self _) hrest rfl
        exact ⟨spellings, .space hspells⟩
      · obtain ⟨segment, behind, hline, hbehind⟩ := exists_segment hc h
        have hlength : behind.length < (c :: rest).length := by
          have hpos : 0 < segment.written.length := by cases segment <;> simp [Segment.written]
          rw [hline, List.length_append]
          omega
        rw [hline]
        exact (ih behind.length hlength hbehind rfl).segment_append segment

/-- **Well formed** lines are those behind which the scanner is outside quotes. -/
theorem isWellFormed_iff {line : Text} : IsWellFormed line ↔ Mode.bare.after line = .bare :=
  ⟨fun ⟨_, hspells⟩ => after_of_spells hspells, isWellFormed_of_after⟩

/-! ## Repair -/

/-- **Repair** — every line has the words of its repair, the repair is well formed, and
nothing shorter that is added to the line makes it well formed. -/
theorem repair_keeps_words (line : Text) :
    words (repaired line) = words line ∧
      IsWellFormed (repaired line) ∧
      ∀ more, IsWellFormed (line ++ more) → (repaired line).length ≤ (line ++ more).length := by
  refine ⟨?_, ?_, ?_⟩
  · show flush (scan .bare (repaired line)).1 (scan .bare (repaired line)).2 = words line
    rw [repaired, scan_append_closing]
    rfl
  · exact isWellFormed_iff.mpr (after_repaired line)
  · intro more hmore
    rw [isWellFormed_iff, Mode.after_append] at hmore
    have hclosing := length_closing_le hmore
    rw [repaired, List.length_append, List.length_append]
    omega

/-- A backslash that waits inside double quotation marks is doubled before they are closed. -/
example : repaired "a \x22b\\".toList = "a \x22b\\\\\x22".toList := by decide

end LineShell
