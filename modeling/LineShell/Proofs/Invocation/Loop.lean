/-
# LineShell.Proofs.Invocation.Loop -- what the loop over input lines comes to
-/

import LineShell.Invocation
import LineShell.Proofs.Console.Division
import LineShell.Proofs.Session.Breaks

namespace LineShell

open LineShell.Action

/-- One command alone asks to leave the shell. -/
theorem Verb.ofCommand_eq_exit_iff {command : Text} :
    ofCommand command = .exit ↔ command = "exit 0" := by
  constructor
  · intro h
    by_cases hexit : command = "exit 0"
    · exact hexit
    · -- none of the other verbs is this one
      rw [ofCommand, if_neg hexit] at h
      repeat' split at h
      all_goals simp at h
  · rintro rfl
    rfl

namespace Invocation

theorem leaves_iff {line : Text} :
    leaves line = true ↔ (CommandLine.ofLine line).command = "exit 0" := by
  rw [leaves, decide_eq_true_iff, Verb.ofCommand_eq_exit_iff]

section Loop

variable (host : Host) (launcher : Launcher) (limit : Level) (prompt : Text)

/-! ## Single lines -/

/-- The step of a session that a line is where the session stands. -/
def stepAt (now : Session.Standing) (line : Text) : Session.Report × World :=
  Session.step host launcher now.state (.line line) ⟨now.tree, limit, []⟩

/-- **Breaks at** — the line ends in a fault that it does not report, where the session
stands. -/
def BreaksAt (now : Session.Standing) (line : Text) (fault : Fault) : Prop :=
  Breaks (Session.runLine host launcher line now.state) ⟨now.tree, limit, []⟩ fault

variable {host launcher limit prompt} {now : Session.Standing} {line : Text} {w : World}

/-- A line does in the loop what it does as a step of a session. -/
theorem perform_runLine_eq (htree : w.tree = now.tree) (hlimit : w.limit = limit) :
    (Session.runLine host launcher line now.state).perform w =
      (((Session.runLine host launcher line now.state).perform ⟨now.tree, limit, []⟩).1,
        w.after (stepAt host launcher limit now line).2.tree
          (stepAt host launcher limit now line).2.events) := by
  have huniform := (compositional_uniform launcher).runLine host line now.state
  obtain ⟨result, t, events, hperform⟩ := huniform now.tree
  have hstep := (Session.step_eq host launcher now.state (.line line) ⟨now.tree, limit, []⟩).1
  have halone : (Session.runLine host launcher line now.state).perform ⟨now.tree, limit, []⟩ =
      (result, ⟨t, limit, events.filter (·.showsAt limit)⟩) := hperform ⟨now.tree, limit, []⟩ rfl
  rw [stepAt, hstep, Session.Step.action, halone, hperform w htree, hlimit]

theorem perform_runLine_of_breaksAt {fault : Fault} (h : BreaksAt host launcher limit now line fault)
    (htree : w.tree = now.tree) (hlimit : w.limit = limit) :
    (Session.runLine host launcher line now.state).perform w =
      (.error fault, w.after (stepAt host launcher limit now line).2.tree
        (stepAt host launcher limit now line).2.events) := by
  rw [perform_runLine_eq htree hlimit]
  exact congrArg (·, _) h.1

theorem perform_runLine_of_not_breaksAt (h : ∀ fault, ¬ BreaksAt host launcher limit now line fault)
    (htree : w.tree = now.tree) (hlimit : w.limit = limit) :
    (Session.runLine host launcher line now.state).perform w =
      (.ok (stepAt host launcher limit now line).1.state,
        w.after (stepAt host launcher limit now line).2.tree
          (stepAt host launcher limit now line).2.events) := by
  obtain ⟨next, hnext⟩ := (Session.exists_state_or_breaks host launcher line now.state
    ⟨now.tree, limit, []⟩).resolve_right fun ⟨fault, hfault⟩ => h fault hfault
  have hstate := (Session.step_eq host launcher now.state (.line line) ⟨now.tree, limit, []⟩).2
  rw [perform_runLine_eq htree hlimit, hnext]
  rw [Session.Step.action, hnext] at hstate
  exact congrArg (fun state => (Except.ok state, _)) hstate.symm

/-- A line that asks to leave does nothing else. -/
theorem perform_runLine_exit {launcher : Launcher} {state : State} {line : Text}
    (h : (CommandLine.ofLine line).command = "exit 0") (w : World) :
    ∃ events, Quiet events ∧ (Session.runLine host launcher line state).perform w =
      (.ok state, w.after w.tree (events ++ [.exited 0])) := by
  obtain ⟨before, hbefore, hline⟩ := Session.perform_runLine host launcher line state w
  have hne : (CommandLine.ofLine line).command ≠ [] := by
    rw [h]
    decide
  have hdispatch (w : World) : (Builtin.dispatch host launcher (.ofLine line) state).perform w =
      (.ok state, w.after w.tree (Message.eventsAt w.limit ⟨.debug, "exit 0 requested"⟩ ++
        [.exited 0])) := by
    rw [Builtin.dispatch, Verb.ofCommand_eq_exit_iff.mpr h]
    dsimp only
    rw [perform_bind, perform_log]
    dsimp only
    rw [perform_bind, perform_emit]
    simp only [perform_pure, World.tree_after, World.after_after]
  rw [if_neg hne, hdispatch] at hline
  refine ⟨before ++ Message.eventsAt w.limit ⟨.debug, "exit 0 requested"⟩,
    hbefore.append (quiet_eventsAt _ _), hline.trans ?_⟩
  simp only [World.tree_after, World.limit_after, World.after_after, List.append_assoc]

/-- A blank line does nothing at all. -/
theorem perform_runLine_blank {launcher : Launcher} {state : State} {line : Text}
    (h : Text.allBlank line = true) (w : World) :
    (Session.runLine host launcher line state).perform w = (.ok state, w) := by
  have hsplit : (Session.split line).perform w = (.ok (CommandLine.plain []), w) := by
    rw [Session.split, CommandLine.ofLine_of_allBlank h]
    rfl
  rw [Session.runLine, perform_bind, hsplit]
  rfl

/-! ## Lines that are passed -/

section Passes

variable (host launcher limit)

/-- **Passes** — the session comes past the lines: each of them neither asks to leave nor
breaks where the session stands when it is reached. -/
def Passes (now : Session.Standing) : List Text → Prop
  | [] => True
  | line :: rest => (CommandLine.ofLine line).command ≠ "exit 0" ∧
    (∀ fault, ¬ BreaksAt host launcher limit now line fault) ∧
    Passes (now.next host launcher limit (.line line)) rest

/-- Where the session stands behind the lines. -/
def behind (now : Session.Standing) (lines : List Text) : Session.Standing :=
  Session.standing host launcher limit now (lines.map .line)

/-- What happens in the loop up to there: the prompt and what the line does, in turn. -/
def prompted (prompt : Text) (now : Session.Standing) (lines : List Text) : List Event :=
  (Session.run host launcher limit now.state now.tree (lines.map .line)).flatMap
    fun answer => .wrote prompt :: answer.events

end Passes

/-- A blank line is passed, and the session stands where it stood. -/
theorem passes_blank (h : Text.allBlank line = true) :
    Passes host launcher limit now [line] ∧
      stepAt host launcher limit now line = (⟨now.state, none, none⟩, ⟨now.tree, limit, []⟩) := by
  have hline := @perform_runLine_blank host launcher now.state line h ⟨now.tree, limit, []⟩
  refine ⟨⟨?_, fun fault => not_breaks_of_ok hline, trivial⟩, ?_⟩
  · rw [CommandLine.command_ofLine_of_allBlank h]
    decide
  · rw [stepAt, Session.step, hline]
    rfl

/-! ## The loop -/

/-- Lines that are passed are run in turn, and the loop goes on behind them. -/
theorem perform_loop_append {before : List Text} (h : Passes host launcher limit now before)
    (rest : List Text) (htree : w.tree = now.tree) (hlimit : w.limit = limit) :
    (loop host launcher prompt now.state (before ++ rest)).perform w =
      (loop host launcher prompt (behind host launcher limit now before).state rest).perform
        (w.after (behind host launcher limit now before).tree
          (prompted host launcher limit prompt now before)) := by
  induction before generalizing now w with
  | nil =>
    have hself : w.after now.tree [] = w := by rw [← htree, World.after_self]
    rw [prompted, behind]
    exact congrArg _ hself.symm
  | cons line more ih =>
    obtain ⟨hstays, hsurvives, hmore⟩ := h
    have hleaves : leaves line = false := Bool.not_eq_true _ ▸ fun h => hstays (leaves_iff.mp h)
    have hline := perform_runLine_of_not_breaksAt hsurvives
      (w := w.after w.tree [.wrote prompt]) htree hlimit
    rw [List.cons_append, loop, perform_bind, perform_emit]
    dsimp only
    rw [perform_bind, hline, hleaves]
    -- the rest is run from where the line has led
    have hrest := ih (w := (w.after w.tree [.wrote prompt]).after
      (stepAt host launcher limit now line).2.tree
      (stepAt host launcher limit now line).2.events) hmore rfl hlimit
    rw [World.after_after, World.after_after] at hrest
    dsimp only
    rw [if_neg Bool.false_ne_true, World.after_after]
    exact hrest

/-- At the end of the input there is one more prompt, and then a line feed. -/
theorem perform_loop_nil {state : State} (w : World) :
    (loop host launcher prompt state []).perform w =
      (.ok (.returned 0), w.after w.tree (.wrote prompt ::
        (Message.eventsAt w.limit ⟨.debug, "End of input, leaving the shell"⟩ ++
          [.printed []]))) := by
  simp only [loop, perform_bind, perform_emit, perform_log, perform_printLine, perform_pure,
    World.tree_after, World.limit_after, World.after_after, List.singleton_append]
  rfl

/-- A line that asks to leave ends the loop, whatever comes behind it. -/
theorem perform_loop_exit {state : State} (h : (CommandLine.ofLine line).command = "exit 0")
    (rest : List Text) (w : World) :
    ∃ events, Quiet events ∧ (loop host launcher prompt state (line :: rest)).perform w =
      (.ok (.exited 0), w.after w.tree (.wrote prompt :: (events ++ [.exited 0]))) := by
  obtain ⟨events, hquiet, hline⟩ := @perform_runLine_exit host launcher state line h
    (w.after w.tree [.wrote prompt])
  refine ⟨events, hquiet, ?_⟩
  rw [loop, perform_bind, perform_emit]
  dsimp only
  rw [perform_bind, hline]
  dsimp only
  rw [if_pos (leaves_iff.mpr h), perform_pure, World.after_after]
  rfl

/-- A line that breaks ends the loop with its fault. -/
theorem perform_loop_breaks {fault : Fault} (h : BreaksAt host launcher limit now line fault)
    (rest : List Text) (htree : w.tree = now.tree) (hlimit : w.limit = limit) :
    (loop host launcher prompt now.state (line :: rest)).perform w =
      (.error fault, w.after (stepAt host launcher limit now line).2.tree
        (.wrote prompt :: (stepAt host launcher limit now line).2.events)) := by
  have hline := perform_runLine_of_breaksAt h (w := w.after w.tree [.wrote prompt]) htree hlimit
  rw [loop, perform_bind, perform_emit]
  dsimp only
  rw [perform_bind, hline]
  dsimp only
  rw [World.after_after]
  rfl

/-- The lines are all passed, or there is a first one that asks to leave or breaks. -/
theorem passes_or_cut (host : Host) (launcher : Launcher) (limit : Level)
    (now : Session.Standing) (lines : List Text) :
    Passes host launcher limit now lines ∨
      ∃ before line rest, lines = before ++ line :: rest ∧ Passes host launcher limit now before ∧
        ((CommandLine.ofLine line).command = "exit 0" ∨
          ∃ fault, BreaksAt host launcher limit (behind host launcher limit now before) line
            fault) := by
  induction lines generalizing now with
  | nil => exact .inl trivial
  | cons line more ih =>
    by_cases hexit : (CommandLine.ofLine line).command = "exit 0"
    · exact .inr ⟨[], line, more, rfl, trivial, .inl hexit⟩
    by_cases hbreaks : ∃ fault, BreaksAt host launcher limit now line fault
    · exact .inr ⟨[], line, more, rfl, trivial, .inr hbreaks⟩
    have hsurvives : ∀ fault, ¬ BreaksAt host launcher limit now line fault :=
      fun fault hfault => hbreaks ⟨fault, hfault⟩
    rcases ih (now.next host launcher limit (.line line)) with
      hmore | ⟨before, other, rest, rfl, hbefore, hends⟩
    · exact .inl ⟨hexit, hsurvives, hmore⟩
    · exact .inr ⟨line :: before, other, rest, rfl, ⟨hexit, hsurvives, hbefore⟩, hends⟩

end Loop
end Invocation
end LineShell
