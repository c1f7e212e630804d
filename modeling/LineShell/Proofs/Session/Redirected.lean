/-
# LineShell.Proofs.Session.Redirected -- what a line leaves in its target

Each command of a session sends a text down the channel that its line redirects
(`Builtin.produced`): `echo`, `pwd` and `type` send their text and a line feed down the
output and nothing down the other channel, `cd` sends nothing, and a program sends the lines
of its stream. The target of the line then holds that text and nothing else, unless it
could not be opened (`runLine_redirects`).

Lines that ask for nothing open nothing, whatever their target is (`OpensNothing`).
-/

import LineShell.CommandLine.Clause
import LineShell.Proofs.Program.Redirected
import LineShell.Proofs.Session.Perform

namespace LineShell

/-! ## Lines have one target at most -/

namespace CommandLine

theorem isSingle_clauseAt {before rest : Text} {line : CommandLine}
    (h : clauseAt before rest = some line) : line.IsSingle := by
  unfold clauseAt at h
  split at h
  · rename_i channel _ _ _
    dsimp only at h
    split at h
    · obtain rfl := Option.some.inj h
      cases channel with
      | output => exact .inr rfl
      | error => exact .inl rfl
    · simp at h
  · simp at h

theorem isSingle_lastClause? {before t : Text} {line : CommandLine}
    (h : lastClause? before t = some line) : line.IsSingle := by
  induction t generalizing before with
  | nil => simp [lastClause?] at h
  | cons c rest ih =>
    unfold lastClause? at h
    split at h
    · rename_i split hsplit
      rw [Option.some.inj h] at hsplit
      exact ih hsplit
    · exact isSingle_clauseAt h

theorem isSingle_ofLine (line : Text) : (ofLine line).IsSingle := by
  unfold ofLine
  dsimp only
  rcases h : lastClause? [] (Text.trim line) with _ | split
  · exact .inl rfl
  · exact isSingle_lastClause? h

/-- A blank line has no command and no target. -/
theorem ofLine_of_allBlank {line : Text} (h : Text.allBlank line = true) :
    ofLine line = plain [] := by
  have hstart : Text.trimStart line = [] := by
    have hdrop := dropWhile_blank_append h []
    rwa [List.append_nil] at hdrop
  have htrim : Text.trim line = [] := by
    rw [Text.trim, hstart]
    rfl
  rw [ofLine, htrim]
  rfl

theorem command_ofLine_of_allBlank {line : Text} (h : Text.allBlank line = true) :
    (ofLine line).command = [] := by
  rw [ofLine_of_allBlank h]
  rfl

end CommandLine

/-! ## Commands without words -/

theorem words_cons_ne_nil {c : Char} (hspace : c ≠ ' ') (hbackslash : c ≠ '\\')
    (hsingle : c ≠ '\x27') (hdouble : c ≠ '\x22') (rest : Text) : words (c :: rest) ≠ [] := by
  simp [words, scan, Mode.breaks, Mode.kept, Mode.next, hspace, hbackslash, hsingle, hdouble]

/-- The names of the builtins begin with four letters. A command that begins with none of
them, or is empty, is left to the programs. -/
theorem Verb.ofCommand_of_first {command : Text}
    (hfirst : ∀ c rest, command = c :: rest → c ∉ ['e', 'p', 't', 'c']) :
    ofCommand command = .program := by
  unfold ofCommand
  split
  · rename_i heq
    exact absurd (by decide) (hfirst _ _ heq)
  · split
    · rename_i heq
      exact absurd (by decide) (hfirst _ _ heq)
    · split
      · rename_i heq
        rcases heq with heq | hstart
        · exact absurd (by decide) (hfirst _ _ heq)
        · obtain ⟨rest, hrest⟩ := List.isPrefixOf_iff_prefix.mp hstart
          exact absurd (by decide) (hfirst _ _ hrest.symm)
      · split
        · rename_i hstart
          exact absurd (by decide) (hfirst _ _ (Text.eq_append_of_isPrefixOf? hstart))
        · split
          · rename_i hstart
            exact absurd (by decide) (hfirst _ _ (Text.eq_append_of_isPrefixOf? hstart))
          · rfl

/-- A command without words is no builtin. -/
theorem Verb.ofCommand_of_words_eq_nil {command : Text} (h : words command = []) :
    ofCommand command = .program := by
  -- the four letters belong to a word wherever they stand in front
  refine ofCommand_of_first ?_
  rintro c rest rfl hc
  refine words_cons_ne_nil ?_ ?_ ?_ ?_ rest h <;>
    rintro rfl <;> simp at hc

open LineShell.Action

namespace Builtin

/-! ## What commands produce -/

/-- A text of a builtin goes down the output with a line feed; no builtin has errors. -/
def said (text : Text) : Channel → Text
  | .output => text ++ ['\n']
  | .error => []

/-- What `type` says of a name. -/
def described (host : Host) (state : State) (t : Tree) (name : Text) : Except SystemError Text :=
  if isBuiltin name then .ok (name ++ " is a shell builtin")
  else
    match Search.program t host.directory (Search.pathOf host state.environment) name with
    | .error e => .error e
    | .ok (some path) => .ok (name ++ " is " ++ path)
    | .ok none => .ok (name ++ ": not found")

/-- **Produced** — the text that a command sends down a channel. -/
def produced (host : Host) (table : Launcher.Table) (state : State) (t : Tree)
    (command : Text) : Channel → Text :=
  match Verb.ofCommand command with
  | .exit | .changeDirectory _ => fun _ => []
  | .printDirectory => said state.directory
  | .echo => said (echoText command)
  | .describe name =>
    match described host state t name with
    | .ok text => said text
    | .error _ => fun _ => []
  | .program => Program.written host table state t command

/-! ## The builtins -/

theorem perform_description (host : Host) (state : State) (name : Text) (w : World) :
    ∃ events, Quiet events ∧ (description host state name).perform w =
      ((described host state w.tree name).mapError Fault.system, w.after w.tree events) := by
  unfold description described
  split
  · exact ⟨[], quiet_nil, by rw [World.after_self]; rfl⟩
  · have hfind := Program.perform_find host state.environment name w
    simp only [perform_bind, hfind]
    rcases Search.program w.tree host.directory (Search.pathOf host state.environment) name with
      e | _ | path
    · exact ⟨_, Program.quiet_findNotes _ _ _, rfl⟩
    · exact ⟨_, Program.quiet_findNotes _ _ _, rfl⟩
    · exact ⟨_, Program.quiet_findNotes _ _ _, rfl⟩

theorem still_changeDirectory (host : Host) (path : Text) (state : State) :
    (changeDirectory host path state).Still := by
  intro w
  obtain ⟨next, events, hchange, hopened, -⟩ := changeDirectory_cases host path state w
  exact ⟨.ok next, w.tree, events, hchange, rfl, hopened⟩

section Single

variable {host : Host} {line : CommandLine} {state : State}

/-- A line of a builtin is all that its target holds. -/
theorem deliver_redirects (hsingle : line.IsSingle) (text : Text) (w : World) :
    (deliver host line state text).Leaves w
      (Target.Redirects host state.directory line (said text) w.tree) := by
  obtain ⟨command, output, error⟩ := line
  cases output with
  | some path =>
    obtain rfl : error = none := hsingle.resolve_left (by simp)
    exact Target.fill_leaves host path state.directory (text ++ ['\n']) w
  | none =>
    cases error with
    | none => exact (still_printLine text).leaves ⟨rfl, rfl⟩
    | some path =>
      exact (Target.touch_leaves host path state.directory w).bind fun _ => still_printLine text

/-- A target that is touched holds nothing. -/
theorem touchTargets_redirects (hsingle : line.IsSingle) (w : World) :
    (touchTargets host line state).Leaves w
      (Target.Redirects host state.directory line (fun _ => []) w.tree) := by
  obtain ⟨command, output, error⟩ := line
  cases output with
  | some path =>
    obtain rfl : error = none := hsingle.resolve_left (by simp)
    exact (Target.touch_leaves host path state.directory w).bind fun _ => still_pure ()
  | none =>
    cases error with
    | none => exact (still_pure ()).leaves ⟨rfl, rfl⟩
    | some path => exact Target.touch_leaves host path state.directory w

/-- The command asks for nothing to be done to its target. -/
def Idles (host : Host) (state : State) (t : Tree) (command : Text) : Prop :=
  Verb.ofCommand command = .exit ∨
    Verb.ofCommand command = .program ∧ Program.FindsNothing host state t command

variable {table : Launcher.Table} {turns : Launch → List Channel}

/-- **A command** with one target at most redirects what it produces; one that idles opens
nothing and leaves the tree alone. -/
theorem dispatch_redirects (hsingle : line.IsSingle) (w : World) :
    (dispatch host (.ofTable table turns) line state).Leaves w fun t handles =>
      Target.Redirects host state.directory line (produced host table state w.tree line.command)
        w.tree t handles ∧
      (Idles host state w.tree line.command → t = w.tree ∧ handles = []) := by
  unfold dispatch
  rcases hverb : Verb.ofCommand line.command with _ | _ | _ | name | path | _ <;>
    simp only [produced, Idles, hverb, reduceCtorEq, false_or, true_or, false_and, true_and,
      false_implies, true_implies, and_true]
  · refine Still.leaves ?_ ⟨.refl _ _ _ _ _, rfl, rfl⟩
    exact (still_log _ _).bind fun _ => (still_emit rfl).bind fun _ => still_pure state
  · exact (deliver_redirects hsingle _ w).bind fun _ => still_pure state
  · exact (deliver_redirects hsingle _ w).bind fun _ => still_pure state
  · obtain ⟨events, hquiet, hdescription⟩ := perform_description host state name w
    -- a look-up that fails comes before the target is opened
    rcases hdescribed : described host state w.tree name with e | text <;>
      rw [hdescribed] at hdescription
    · exact leaves_of_failed hdescription hquiet.opened? (.refl _ _ _ _ _)
    · refine .behind hdescription hquiet.opened? ?_
      exact (deliver_redirects hsingle text _).bind fun _ => still_pure state
  · exact (touchTargets_redirects hsingle w).bind fun _ => still_changeDirectory _ _ _
  · exact (Program.run_redirects table turns line hsingle w).bind fun _ => still_pure state

end Single
end Builtin

/-! ## Lines -/

namespace Session

theorem still_recover (line : CommandLine) (state : State) (fault : Fault) :
    (recover line state fault).Still := by
  intro w
  obtain ⟨result, events, hrecover, hopened, -⟩ := recover_cases line state fault w
  exact ⟨result, w.tree, events, hrecover, rfl, hopened⟩

/-- **Opening nothing** — the lines that leave their target alone: blank ones, `exit 0`, lines
without words, and lines whose command is neither a builtin nor found as a program. -/
inductive OpensNothing (host : Host) (state : State) (t : Tree) (line : Text) : Prop
  | blank : Text.allBlank line = true → OpensNothing host state t line
  | exit : (CommandLine.ofLine line).command = "exit 0" → OpensNothing host state t line
  | wordless : words (CommandLine.ofLine line).command = [] → OpensNothing host state t line
  | unresolved {name : Text} {arguments : List Text} :
      Verb.ofCommand (CommandLine.ofLine line).command = .program →
      words (CommandLine.ofLine line).command = name :: arguments →
      Search.program t host.directory (Search.pathOf host state.environment) name = .ok none →
      OpensNothing host state t line

theorem OpensNothing.idles {host : Host} {state : State} {t : Tree} {line : Text}
    (h : OpensNothing host state t line) (hcommand : (CommandLine.ofLine line).command ≠ []) :
    Builtin.Idles host state t (CommandLine.ofLine line).command := by
  cases h with
  | blank hblank => exact absurd (CommandLine.command_ofLine_of_allBlank hblank) hcommand
  | exit hexit =>
    rw [hexit]
    exact .inl (by decide)
  | wordless hwords =>
    exact .inr ⟨Verb.ofCommand_of_words_eq_nil hwords, by simp [Program.FindsNothing, hwords]⟩
  | unresolved hverb hwords hfound =>
    exact .inr ⟨hverb, by simpa [Program.FindsNothing, hwords] using hfound⟩

/-- **A line** redirects what its command produces, and to one target at most. -/
theorem runLine_redirects (host : Host) (table : Launcher.Table) (turns : Launch → List Channel)
    (line : Text) (state : State) (w : World) :
    (runLine host (.ofTable table turns) line state).Leaves w fun t handles =>
      Target.Redirects host state.directory (CommandLine.ofLine line)
        (Builtin.produced host table state w.tree (CommandLine.ofLine line).command) w.tree t
        handles ∧
      (OpensNothing host state w.tree line → t = w.tree ∧ handles = []) := by
  obtain ⟨events, hquiet, hsplit⟩ := perform_split line w
  refine .behind hsplit hquiet.opened? ?_
  split
  · exact (still_pure state).leaves ⟨.refl _ _ _ _ _, fun _ => ⟨rfl, rfl⟩⟩
  · rename_i hcommand
    refine Leaves.tryCatch ?_ (still_recover _ state)
    refine (Builtin.dispatch_redirects (CommandLine.isSingle_ofLine line) _).mono ?_
    rintro t handles ⟨hred, hidles⟩
    -- splitting the line has left the tree alone, so both sides are about the same tree
    exact ⟨hred, fun hnothing => hidles (hnothing.idles hcommand)⟩

end Session
end LineShell
