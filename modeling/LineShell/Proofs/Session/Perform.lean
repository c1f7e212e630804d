/-
# LineShell.Proofs.Session.Perform -- what the steps of a session come to

The parts of a step, from the inside out: which command asks for a change of directory
(`ofCommand_eq_changeDirectory`), what changing to a directory makes of the state
(`changeDirectory_cases`), how a command that fails is reported (`recover_cases`), and how
a line is taken (`perform_runLine`). Every step performs one action (`step_eq`). From these
follows the rule for the state: a step leaves it as it is, or moves to a directory that a
`cd` command names (`moves_step`).

A session of several steps is told by where it stands after them (`standing`). The answers
that it gives on the way are those of single steps (`mem_run`).
-/

import LineShell.Proofs.Action.Breaks
import LineShell.Proofs.Program.Perform
import LineShell.Session

namespace LineShell

/-! ## Commands -/

/-- What is left of a text behind a prefix is the rest of the text. -/
theorem Text.eq_append_of_isPrefixOf? {start t rest : Text} (h : start.isPrefixOf? t = some rest) :
    t = start ++ rest := by
  induction start generalizing t with
  | nil => exact Option.some.inj h
  | cons c others ih =>
    cases t with
    | nil => nomatch h
    | cons d more =>
      change (if c == d then others.isPrefixOf? more else none) = some rest at h
      split at h
      · rename_i hcd
        rw [beq_iff_eq.mp hcd, ih h]
        rfl
      · simp at h

/-- Only a command that begins with `cd` and a space asks for a change of directory. -/
theorem Verb.ofCommand_eq_changeDirectory {command path : Text}
    (h : ofCommand command = .changeDirectory path) :
    ∃ rest, command = "cd " ++ rest ∧ path = Text.trim rest := by
  unfold ofCommand at h
  -- the prefixes are tried in turn, and `cd` comes last
  split at h
  · simp at h
  · split at h
    · simp at h
    · split at h
      · simp at h
      · split at h
        · simp at h
        · split at h
          · rename_i rest hrest
            exact ⟨rest, Text.eq_append_of_isPrefixOf? hrest, (changeDirectory.inj h).symm⟩
          · simp at h

/-! ## Actions that leave a state as it is -/

namespace Action

variable {α β : Type}

/-- **Returns** — the action has no other result than the given one. -/
def Returns (x : Action α) (a : α) : Prop :=
  ∀ w b w', x.perform w = (.ok b, w') → b = a

theorem returns_pure (a : α) : Returns (pure a) a := by
  intro w b w' h
  exact (Except.ok.inj (Prod.ext_iff.mp h).1).symm

theorem Returns.bind {x : Action α} {f : α → Action β} {b : β} (hf : ∀ a, (f a).Returns b) :
    Returns (x >>= f) b := by
  intro w b' w' h
  obtain ⟨a, w₁, -, hnext⟩ := perform_bind_eq_ok_iff.mp h
  exact hf a w₁ b' w' hnext

end Action

open LineShell.Action

/-! ## Changing the directory -/

/-- **Moves** — the state stays, or it is moved to a directory that is found in the tree
under the path that a `cd` command names. -/
def Session.Moves (host : Host) (line : CommandLine) (state : State) (t : Tree)
    (next : State) : Prop :=
  next = state ∨ ∃ path directory, line.command = "cd " ++ path ∧
    Search.directory t host.directory (expandHome (state.home host) (Text.trim path))
      state.directory = some directory ∧ next = state.inDirectory directory

namespace Builtin

/-- Changing the directory always comes to a state; it opens nothing. -/
theorem changeDirectory_cases (host : Host) (path : Text) (state : State) (w : World) :
    ∃ next events, (changeDirectory host path state).perform w =
        (.ok next, w.after w.tree events) ∧ events.filterMap Event.opened? = [] ∧
      (next = state ∨ ∃ directory, Search.directory w.tree host.directory
        (expandHome (state.home host) path) state.directory = some directory ∧
          next = state.inDirectory directory) := by
  simp only [changeDirectory, perform_bind, perform_tree]
  rcases h : Search.directory w.tree host.directory (expandHome (state.home host) path)
    state.directory with _ | directory
  · simp only [perform_bind, perform_log, perform_printLine, perform_pure, World.tree_after,
      World.after_after]
    refine ⟨state, _, rfl, ?_, .inl rfl⟩
    rw [List.filterMap_append, (quiet_eventsAt _ _).opened?]
    rfl
  · simp only [perform_bind, perform_log, perform_pure]
    exact ⟨_, _, rfl, (quiet_eventsAt _ _).opened?, .inr ⟨directory, rfl, rfl⟩⟩

/-- A command that is carried out moves the state at most. -/
theorem moves_dispatch {host : Host} {launcher : Launcher} {line : CommandLine}
    {state next : State} {w w' : World}
    (h : (dispatch host launcher line state).perform w = (.ok next, w')) :
    Session.Moves host line state w'.tree next := by
  unfold dispatch at h
  split at h
  · exact .inl ((Returns.bind fun _ => .bind fun _ => returns_pure state) w next w' h)
  · exact .inl ((Returns.bind fun _ => returns_pure state) w next w' h)
  · exact .inl ((Returns.bind fun _ => returns_pure state) w next w' h)
  · exact .inl ((Returns.bind fun _ => .bind fun _ => returns_pure state) w next w' h)
  · -- the directory is looked up in the tree that touching the targets has left
    rename_i path hverb
    obtain ⟨rest, hcommand, rfl⟩ := Verb.ofCommand_eq_changeDirectory hverb
    obtain ⟨-, w₁, -, hmove⟩ := perform_bind_eq_ok_iff.mp h
    obtain ⟨next', events, hchange, -, hmoves⟩ :=
      changeDirectory_cases host (Text.trim rest) state w₁
    rw [hchange, Prod.mk.injEq] at hmove
    obtain ⟨hnext, rfl⟩ := hmove
    obtain rfl := Except.ok.inj hnext
    rcases hmoves with rfl | ⟨directory, hfound, rfl⟩
    · exact .inl rfl
    · exact .inr ⟨rest, directory, hcommand, hfound, rfl⟩
  · exact .inl ((Returns.bind fun _ => returns_pure state) w next w' h)

end Builtin

/-! ## Taking a line -/

namespace Session

/-- Splitting a line is quiet. -/
theorem perform_split (line : Text) (w : World) :
    ∃ events, Quiet events ∧
      (split line).perform w = (.ok (CommandLine.ofLine line), w.after w.tree events) := by
  unfold split
  dsimp only
  split
  · simp only [perform_bind, perform_log, perform_pure]
    exact ⟨_, quiet_eventsAt _ _, rfl⟩
  · exact ⟨[], quiet_nil, by rw [World.after_self]; rfl⟩

/-- The message about a command that ended in a system error. -/
def failureNote (line : CommandLine) (error : SystemError) : Message :=
  ⟨.warning, "Command failed: " ++ Text.quoted line.command ++ ": " ++ error.shown⟩

/-- The line that reports a system error to the user. -/
def failureReport (error : SystemError) : Text := "Error executing command: " ++ error.message

/-- A system error is noted and reported, and the state stays. -/
theorem perform_recover_system (line : CommandLine) (state : State) (error : SystemError)
    (w : World) :
    (recover line state (.system error)).perform w = (.ok state, w.after w.tree
      ((failureNote line error).eventsAt w.limit ++ [.printed (failureReport error)])) := by
  simp only [recover, perform_bind, perform_log, perform_printLine, perform_pure,
    World.tree_after, World.after_after]
  rfl

/-- Any other fault is passed on. -/
theorem perform_recover_of_not_system {fault : Fault} (h : fault.isSystem = false)
    (line : CommandLine) (state : State) (w : World) :
    (recover line state fault).perform w = (.error fault, w) := by
  cases fault with
  | system error => exact absurd h (by simp)
  | embeddedNul => rfl
  | badVariableName => rfl
  | tooDeep => rfl

/-- A fault is reported, or passed on; the tree stays, and nothing is opened. -/
theorem recover_cases (line : CommandLine) (state : State) (fault : Fault) (w : World) :
    ∃ result events, (recover line state fault).perform w = (result, w.after w.tree events) ∧
      events.filterMap Event.opened? = [] ∧ ∀ next, result = .ok next → next = state := by
  rcases hfault : fault.isSystem with _ | _
  · refine ⟨.error fault, [], ?_, rfl, by simp⟩
    rw [perform_recover_of_not_system hfault, World.after_self]
  · obtain ⟨error, rfl⟩ := Fault.exists_system hfault
    refine ⟨_, _, perform_recover_system line state error w, ?_,
      fun next h => (Except.ok.inj h).symm⟩
    rw [List.filterMap_append, (quiet_eventsAt _ _).opened?]
    rfl

/-- **Taking a line** — it is split, which is quiet; unless its command is empty it is
dispatched, and a fault is dealt with. -/
theorem perform_runLine (host : Host) (launcher : Launcher) (line : Text) (state : State)
    (w : World) :
    let parsed := CommandLine.ofLine line
    ∃ events, Quiet events ∧ (runLine host launcher line state).perform w =
      if parsed.command = [] then (.ok state, w.after w.tree events)
      else match (Builtin.dispatch host launcher parsed state).perform (w.after w.tree events) with
        | (.ok next, w') => (.ok next, w')
        | (.error fault, w') => (recover parsed state fault).perform w' := by
  obtain ⟨events, hquiet, hsplit⟩ := perform_split line w
  refine ⟨events, hquiet, ?_⟩
  rw [runLine, perform_bind, hsplit]
  dsimp only
  split
  · rfl
  · rw [perform_tryCatch]
    rcases (Builtin.dispatch host launcher (CommandLine.ofLine line) state).perform
      (w.after w.tree events) with ⟨_ | _, w'⟩ <;> rfl

/-- A line moves the state at most. -/
theorem moves_runLine {host : Host} {launcher : Launcher} {line : Text} {state next : State}
    {w w' : World} (h : (runLine host launcher line state).perform w = (.ok next, w')) :
    Moves host (CommandLine.ofLine line) state w'.tree next := by
  obtain ⟨events, -, hline⟩ := perform_runLine host launcher line state w
  rw [hline] at h
  split at h
  · exact .inl (Except.ok.inj (Prod.ext_iff.mp h).1).symm
  · split at h
    · rename_i hdispatch
      rw [h] at hdispatch
      exact Builtin.moves_dispatch hdispatch
    · rename_i fault w₁ _
      obtain ⟨result, events', hrecover, -, hstate⟩ :=
        recover_cases (CommandLine.ofLine line) state fault w₁
      rw [hrecover] at h
      exact .inl (hstate next (Prod.ext_iff.mp h).1)

/-! ## Steps -/

/-- The command line of a step. -/
def Step.commandLine : Step → CommandLine
  | .line text => .ofLine text
  | .dispatch parsed | .execute parsed => parsed

/-- The action that a step performs; it comes to the state after the step. -/
def Step.action (host : Host) (launcher : Launcher) (state : State) : Step → Action State
  | .line text => runLine host launcher text state
  | .dispatch parsed => Builtin.dispatch host launcher parsed state
  | .execute parsed => Program.run host launcher parsed state >>= fun _ => pure state

/-- A step performs its action; a fault leaves the state as it was. -/
theorem step_eq (host : Host) (launcher : Launcher) (state : State) (s : Step) (w : World) :
    let performed := (s.action host launcher state).perform w
    (step host launcher state s w).2 = performed.2 ∧
      (step host launcher state s w).1.state =
        match performed.1 with
        | .ok next => next
        | .error _ => state := by
  cases s with
  | line text =>
    rcases h : (runLine host launcher text state).perform w with ⟨_ | _, w'⟩ <;>
      simp only [step, Step.action, h, step.settle, and_self]
  | dispatch parsed =>
    rcases h : (Builtin.dispatch host launcher parsed state).perform w with ⟨_ | _, w'⟩ <;>
      simp only [step, Step.action, h, step.settle, and_self]
  | execute parsed =>
    rcases h : (Program.run host launcher parsed state).perform w with ⟨_ | _, w'⟩ <;>
      simp only [step, Step.action, h, perform_bind, perform_pure, and_self]

/-- **A step** moves the state at most, also when it fails. -/
theorem moves_step (host : Host) (launcher : Launcher) (state : State) (s : Step) (w : World) :
    let after := step host launcher state s w
    Moves host s.commandLine state after.2.tree after.1.state := by
  obtain ⟨hworld, hstate⟩ := step_eq host launcher state s w
  dsimp only
  rw [hworld, hstate]
  rcases h : (s.action host launcher state).perform w with ⟨fault | next, w'⟩
  · exact .inl rfl
  · cases s with
    | line text => exact moves_runLine h
    | dispatch parsed => exact Builtin.moves_dispatch h
    | execute parsed => exact .inl ((Returns.bind fun _ => returns_pure state) w next w' h)

/-! ## Where a session stands -/

/-- **Standing** — the state of a session and the tree it is in. -/
structure Standing where
  state : State
  tree : Tree

section Standing

variable (host : Host) (launcher : Launcher) (limit : Level)

/-- Where a session stands after one more step. -/
def Standing.next (now : Standing) (s : Step) : Standing :=
  let (report, w) := step host launcher now.state s ⟨now.tree, limit, []⟩
  ⟨report.state, w.tree⟩

/-- Where a session stands after some steps. -/
def standing (now : Standing) (steps : List Step) : Standing :=
  steps.foldl (Standing.next host launcher limit) now

/-- An answer tells where the session stands after the step that it answers. -/
theorem mem_run {now : Standing} {steps : List Step} {answer : Answer}
    (h : answer ∈ run host launcher limit now.state now.tree steps) :
    ∃ first s rest, steps = first ++ s :: rest ∧
      standing host launcher limit now (first ++ [s]) = ⟨answer.report.state, answer.tree⟩ := by
  induction steps generalizing now with
  | nil => simp [run] at h
  | cons s rest ih =>
    rcases List.mem_cons.mp h with rfl | h
    · exact ⟨[], s, rest, rfl, rfl⟩
    · obtain ⟨first, s', more, rfl, hstanding⟩ :=
        @ih (Standing.next host launcher limit now s) h
      exact ⟨s :: first, s', more, rfl, hstanding⟩

end Standing

end Session
end LineShell
