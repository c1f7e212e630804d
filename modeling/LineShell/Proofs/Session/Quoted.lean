/-
# LineShell.Proofs.Session.Quoted -- quoted words that `echo` prints

The splitter reads the text of a line as it stands and knows nothing of quotation marks. So quoted
text stays in the command only as long as no clause can be read in it. Where every operator between
white space is quoted, a line without line feeds is split exactly if it holds such an operator, and
is torn in the middle of a quotation then (`quoted_operators_kept_or_torn`).

Where nothing is split off, `echo` prints quoted words as they are meant. White space inside the
marks is no white space at the ends of the line, for a quoted word begins and ends with a mark
(`words_trimEnd_of_quoted`). What trimming takes away are the spaces around the words.
-/

import LineShell.Proofs.CommandLine.Quoted
import LineShell.Proofs.Session.Echo
import LineShell.Proofs.Words.Meaning

namespace LineShell

/-! ## Quoted words -/

/-- The segment stands between quotation marks. -/
def Segment.isQuoted : Segment → Bool
  | bare .. | escaped .. => false
  | single .. | double .. => true

/-- **Quoted** — all of the word stands between quotation marks. -/
def Spelling.IsQuoted (word : Spelling) : Prop := ∀ segment ∈ word, segment.isQuoted = true

instance (word : Spelling) : Decidable word.IsQuoted :=
  List.decidableBAll (fun segment : Segment => segment.isQuoted = true) word

/-- A quoted word ends in a mark. -/
theorem Spelling.IsQuoted.exists_written_eq_append {word : Spelling} (h : word.IsQuoted)
    (hne : word ≠ []) : ∃ front mark, word.written = front ++ [mark] ∧ isMark mark = true := by
  obtain ⟨first, segment, rfl⟩ := (List.eq_nil_or_concat word).resolve_left hne
  have hsegment : ∃ front mark, segment.written = front ++ [mark] ∧ isMark mark = true := by
    have hquoted : segment.isQuoted = true := h segment (by simp)
    cases segment with
    | bare | escaped => exact absurd hquoted (by simp [Segment.isQuoted])
    | single text => exact ⟨'\x27' :: text, '\x27', rfl, by decide⟩
    | double items => exact ⟨'\x22' :: items.flatMap Item.written, '\x22', rfl, by decide⟩
  obtain ⟨front, mark, hwritten, hmark⟩ := hsegment
  refine ⟨Spelling.written first ++ front, mark, ?_, hmark⟩
  simp [Spelling.written, hwritten]

theorem Spelling.IsQuoted.trimEnd_written {word : Spelling} (h : word.IsQuoted) (hne : word ≠ []) :
    Text.trimEnd word.written = word.written := by
  obtain ⟨front, mark, hwritten, hmark⟩ := h.exists_written_eq_append hne
  rw [hwritten, Text.trimEnd_append_of_not_blank (not_isBlank_of_isMark hmark)]

/-- A space is trimmed away with all that is behind it, or stays. -/
theorem trimEnd_space_cons (t : Text) :
    Text.trimEnd (' ' :: t) = if Text.trimEnd t = [] then [] else ' ' :: Text.trimEnd t :=
  Text.trimEnd_append [' '] t

/-- A line of quoted words has the words that they mean, also if its end is trimmed. -/
theorem words_trimEnd_of_quoted {spellings : List Spelling} {line : Text}
    (h : Spells spellings line) (hquoted : ∀ word ∈ spellings, word.IsQuoted) :
    words (Text.trimEnd line) = (spellings.map Spelling.meaning).filter (· ≠ []) := by
  induction h with
  | nil => rfl
  | @space _ rest _ ih =>
    rw [← ih hquoted, trimEnd_space_cons]
    split
    · rename_i hnil
      rw [hnil]
    · exact words_space_cons _
  | last hne =>
    rw [(hquoted _ List.mem_cons_self).trimEnd_written hne]
    exact words_written _
  | @word word others rest hne _ ih =>
    have hrest := ih fun other hother => hquoted other (List.mem_cons_of_mem _ hother)
    show _ = List.filter (· ≠ []) ([word.meaning] ++ others.map Spelling.meaning)
    rw [List.filter_append, ← hrest, Text.trimEnd_append, trimEnd_space_cons]
    by_cases hnil : Text.trimEnd rest = []
    · rw [if_pos hnil, if_pos rfl, hnil, (hquoted word List.mem_cons_self).trimEnd_written hne,
        words_written, words_nil, List.append_nil]
    · rw [if_neg hnil, if_neg (List.cons_ne_nil _ _), words_written_space]

/-! ## `echo` on a line that nothing is split off -/

namespace CommandLine

/-- White space in front of a line is trimmed away. -/
theorem trim_blank_append {before : Text} (h : Text.allBlank before = true) (t : Text) :
    Text.trim (before ++ t) = Text.trim t := by
  rw [Text.trim, Text.trimStart, dropWhile_blank_append h, ← Text.trimStart, ← Text.trim]

end CommandLine

namespace Session

variable {host : Host} {launcher : Launcher} {state : State} {line command rest text : Text}

/-- A line without a target is split with no message. -/
theorem perform_runLine_plain (hline : CommandLine.ofLine line = .plain command)
    (hne : command ≠ []) (w : World) :
    (runLine host launcher line state).perform w =
      (tryCatch (Builtin.dispatch host launcher (.plain command) state)
        (recover (.plain command) state)).perform w := by
  have hsplit : (split line).perform w = (.ok (.plain command), w) := by
    rw [split, hline]
    rfl
  rw [runLine, Action.perform_bind, hsplit]
  simp [hne]

/-- `echo` prints the words behind its name and does nothing else. -/
theorem perform_runLine_echo (hline : CommandLine.ofLine line = .plain ("echo" ++ rest))
    (hrest : rest <+: ' ' :: text) (w : World) :
    (runLine host launcher line state).perform w =
      (.ok state, w.after w.tree [.printed ([' '].intercalate (words rest))]) := by
  rw [perform_runLine_plain hline (List.cons_ne_nil _ _), Action.perform_tryCatch,
    CommandLine.plain, Builtin.dispatch_echo_append hrest, Action.perform_bind, ← CommandLine.plain,
    Builtin.perform_deliver_plain]
  rfl

/-- **Quoted operators** — for every line that leaves no quotation open, and in which every operator
between white space is quoted. Its text is kept in the command as it is, unless a clause can be read
in it. Without line feeds that is exactly if it has no such operator at all. Otherwise it is torn.
If the text is kept and begins with `echo`, quoted words behind that are printed, and no file is
made. -/
theorem quoted_operators_kept_or_torn {line : Text}
    (hclosed : (Mode.bare.after line).isQuoted = false)
    (hquoted : CommandLine.OperatorsQuoted line) :
    let parsed := CommandLine.ofLine line
    let kept := parsed = .plain (Text.trim line)
    (kept ↔ ∀ position, ¬ CommandLine.HasClauseAt (Text.trim line) position) ∧
    ('\n' ∉ line → (kept ↔ ∀ position, ¬ CommandLine.HasOperatorAt line position)) ∧
    (¬ kept → parsed.IsTorn) ∧
    (kept → ∀ (before text : Text) (spellings : List Spelling), Text.allBlank before = true →
      line = before ++ ("echo" ++ ' ' :: text) → Spells spellings text →
      (∀ word ∈ spellings, word.IsQuoted) →
      ∀ (host : Host) (launcher : Launcher) (limit : Level) (state : State) (tree : Tree),
        (runLine host launcher line state).perform ⟨tree, limit, []⟩ =
          (.ok state, ⟨tree, limit, [.printed ([' '].intercalate
            ((spellings.map Spelling.meaning).filter (· ≠ [])))]⟩)) := by
  intro parsed kept
  have hkept : kept ↔ ∀ position, ¬ CommandLine.HasClauseAt (Text.trim line) position :=
    CommandLine.ofLine_eq_plain_iff
  refine ⟨hkept, fun hsingle => ?_, fun hnot => ?_, fun h => ?_⟩
  · rw [hkept, ← not_exists, CommandLine.exists_clause_iff hquoted hclosed hsingle, not_exists]
  · rw [hkept, Classical.not_forall_not] at hnot
    exact CommandLine.isTorn_ofLine hquoted hclosed hnot
  · rintro before text spellings hbefore rfl hspells hwords host launcher limit state tree
    have htrim : Text.trim (before ++ ("echo" ++ ' ' :: text)) =
        "echo" ++ Text.trimEnd (' ' :: text) := by
      rw [CommandLine.trim_blank_append hbefore]
      exact Text.IsSolid.trim_append (by decide) _
    have hline := h.trans (congrArg CommandLine.plain htrim)
    rw [perform_runLine_echo hline (Text.trimEnd_prefix _),
      words_trimEnd_of_quoted (.space hspells) hwords]
    rfl

/-- Two operators that are kept, since there is a line feed in the target of the one and in the
command of the other. Without the line feed, the line is torn at the second one. -/
theorem quoted_operators_kept_or_torn_newline :
    let line : Text := "\t echo \x27\x27 \x27a 2> b\nc\x27  \x22 > \x22 "
    let torn : Text := "\t echo \x27\x27 \x27a 2> bc\x27  \x22 > \x22 "
    let host : Host := ⟨[], [], none, 990⟩
    let state : State := ⟨"/", []⟩
    (Mode.bare.after line).isQuoted = false ∧ CommandLine.OperatorsQuoted line ∧
      CommandLine.HasOperatorAt line 13 ∧ CommandLine.HasOperatorAt line 24 ∧
      (runLine host (.ofTable [] fun _ => []) line state).perform ⟨.empty, .debug, []⟩ =
        (.ok state, ⟨.empty, .debug, [.printed "a 2> b\nc  > "]⟩) ∧
    (Mode.bare.after torn).isQuoted = false ∧ CommandLine.OperatorsQuoted torn ∧
      (CommandLine.ofLine torn).IsTorn ∧
      (CommandLine.ofLine torn).output = some ("\x22" : Text) := by
  intro line torn host state
  have hclosed : (Mode.bare.after line).isQuoted = false := by decide
  have hquoted : CommandLine.OperatorsQuoted line := by decide +kernel
  have hclosed' : (Mode.bare.after torn).isQuoted = false := by decide
  have hquoted' : CommandLine.OperatorsQuoted torn := by decide +kernel
  have hkept : CommandLine.ofLine line = .plain (Text.trim line) := by decide +kernel
  have hnot : ¬ CommandLine.ofLine torn = .plain (Text.trim torn) := by decide +kernel
  let text : Text := "\x27\x27 \x27a 2> b\nc\x27  \x22 > \x22 "
  let spellings : List Spelling :=
    [[.single [] (by decide)], [.single "a 2> b\nc".toList (by decide)],
      [.double [.plain ' ' (by decide), .plain '>' (by decide), .plain ' ' (by decide)]]]
  have hspells : Spells spellings text :=
    spells_iff_laidOut.mpr ⟨0, spellings.zip [0, 1, 1], by decide, rfl, by decide⟩
  have hprinted := (quoted_operators_kept_or_torn hclosed hquoted).2.2.2 hkept ['\t', ' '] text
    spellings (by decide) rfl hspells (by decide) host (.ofTable [] fun _ => []) .debug state .empty
  have htorn := (quoted_operators_kept_or_torn hclosed' hquoted').2.2.1 hnot
  exact ⟨hclosed, hquoted, by decide, by decide, hprinted, hclosed', hquoted', htorn, by decide +kernel⟩

/-- Quoted text that a clause can be read in. -/
theorem quoted_operator_torn :
    let line : Text := "echo \x27a > b\x27"
    (Mode.bare.after line).isQuoted = false ∧ CommandLine.OperatorsQuoted line ∧
      CommandLine.ofLine line = .redirected "echo \x27a" .output "b\x27" ∧
      CommandLine.ofLine line ≠ .plain (Text.trim line) := by
  decide +kernel

end Session

end LineShell
