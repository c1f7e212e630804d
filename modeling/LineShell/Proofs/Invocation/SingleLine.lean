/-
# LineShell.Proofs.Invocation.SingleLine -- a single line and a loop over it

A line can be handed to the shell in two ways: as an argument, or as an input that holds
nothing else. Both run it once, in the same state and the same tree, so that it does the same
things. The loop adds its prompt in front of the line, and if the line neither asks to leave
nor breaks, it comes to the end of its input and adds one more prompt and a line feed. The
messages that open and close a loop are for the verbose levels. At any other level, so also at
the one that holds if none is chosen, nothing else tells the two apart
(`run_single_line_as_loop`).

A line that is an argument must not look like an option, and a line of an input holds no line
ending. Apart from that any line will do.
-/

import LineShell.Proofs.Invocation.Endings
import LineShell.Proofs.Options.Naming

namespace LineShell

/-! ## Reading the line -/

/-- The line behind the option for it is the line that is run. -/
theorem Options.read_command {line : Text} (h : line.head? ≠ some '-') :
    read ["-c", line] = .run ⟨some (some line), none, false⟩ := by
  have hmark : line ≠ "--" := by
    rintro rfl
    exact h rfl
  have hplain := classify_of_head?_ne h
  have hkinds : classifyAll ["-c", line] =
      .ok [("-c", .option "-c" .command none), (line, .plain)] := by
    have hoption : classify "-c" = .ok (.option "-c" .command none) := by decide
    have hother : ("-c" : Text) ≠ "--" := by decide
    rw [classifyAll, if_neg hother, hoption, classifyAll, if_neg hmark, hplain]
    rfl
  have hvalue : valueOf line = some line := if_neg hmark
  rw [read, hkinds]
  simp only [interpret, unfold, Switch.takesValue, if_true, hvalue]
  rfl

/-- A line without line endings is all that is read of an input of it and a line feed. -/
theorem Console.divides_single {line : Text} (h : IsUnbroken line) :
    Divides (line ++ ['\n']) [line] :=
  .ended .lineFeed h (by simp) .done

namespace Invocation

open LineShell.Action

/-- **Terse** — the level does not admit information, and so nothing that is more verbose. -/
def IsTerse (limit : Level) : Prop := limit.admits .info = false

/-- If no level is chosen, the one that holds is terse. -/
theorem isTerse_of_default {environment : Environment}
    (h : environment.value? levelVariable = none) :
    IsTerse (Settings.ofVariables environment).level.1 := by
  have hname : (Settings.ofVariables environment).levelName = "ERROR" := by
    rw [Settings.ofVariables, h]
    show Text.upper Level.error.name = "ERROR"
    decide
  have hlevel : Level.ofName? "ERROR" = some .error := by decide
  rw [Settings.level, hname, hlevel]
  rfl

/-- At a terse level nothing opens or closes a loop. -/
theorem IsTerse.opening_eq_nil {limit : Level} (h : IsTerse limit) (state : State) :
    opening limit state = [] := by
  have hinfo : ¬ limit.admits .info = true := by
    rw [h]
    decide
  exact if_neg hinfo

theorem IsTerse.closing_eq_nil {limit : Level} (h : IsTerse limit) : closing limit = [] := by
  have hdebug : ¬ limit.admits .debug = true := by
    intro hadmits
    have hinfo : limit.admits .info = true := Level.admits_trans hadmits (by decide)
    rw [h] at hinfo
    exact absurd hinfo (by decide)
  exact if_neg hdebug

/-- **Alike** — one outcome is that of a loop over a line, and the other one that of the line
by itself. -/
structure Alike (prompt : Text) (single looped : Outcome) : Prop where
  tree : looped.tree = single.tree
  ending : looped.ending = single.ending
  errors : looped.errors = single.errors
  /-- The prompt comes first, and comes again if the loop goes on behind the line. -/
  output :
    (single.ending = .returned 0 ∧
      looped.output = prompt ++ single.output ++ prompt ++ ['\n']) ∨
    ((single.ending = .exited 0 ∨ single.ending = .returned 1) ∧
      looped.output = prompt ++ single.output)

/-- Messages in front of both outcomes make no difference. -/
theorem Alike.behind {prompt : Text} {single looped : Outcome} (h : Alike prompt single looped)
    {notes : List Event} (hnotes : Quiet notes) :
    Alike prompt { single with events := notes ++ single.events }
      { looped with events := notes ++ looped.events } := by
  have houtput (o : Outcome) :
      Outcome.output { o with events := notes ++ o.events } = o.output := by
    rw [Outcome.output, List.flatMap_append, output_of_quiet hnotes]
    rfl
  refine ⟨h.tree, h.ending, ?_, ?_⟩
  · rw [Outcome.errors, Outcome.errors, List.flatMap_append, List.flatMap_append]
    exact congrArg _ h.errors
  · rw [houtput, houtput]
    exact h.output

section Alike

variable {host : Host} {launcher : Launcher} {limit : Level} {prompt line : Text}
  {state : State} {tree t : Tree} {events : List Event}

/-- The loop over a single line begins with the prompt. -/
theorem perform_interact_single (hline : Console.IsUnbroken line) (hlimit : IsTerse limit) :
    (interact host launcher prompt state (line ++ ['\n'])).perform ⟨tree, limit, []⟩ =
      (Session.runLine host launcher line state >>= fun next =>
        if leaves line then pure (.exited 0) else loop host launcher prompt next []).perform
          ⟨tree, limit, [.wrote prompt]⟩ := by
  have hlines := Console.divides_iff.mp (Console.divides_single hline)
  have hopening : Message.eventsAt limit
      ⟨.info, programName ++ " " ++ version ++ " started in " ++ state.directory⟩ = [] :=
    hlimit.opening_eq_nil state
  rw [interact, ← hlines, perform_bind, perform_log]
  simp only [hopening]
  rw [loop, perform_bind, perform_emit]
  rfl

/-- **A line that comes to a state**, by itself and in a loop. -/
theorem alike_of_ok {next : State} (hline : Console.IsUnbroken line) (hlimit : IsTerse limit)
    (hperform : ∀ before, (Session.runLine host launcher line state).perform
      ⟨tree, limit, before⟩ = (.ok next, ⟨t, limit, before ++ events⟩)) :
    Alike prompt (conducting limit (runOnce host launcher line state) tree)
      (conducting limit (interact host launcher prompt state (line ++ ['\n'])) tree) := by
  have hloop := @perform_interact_single host launcher limit prompt line state tree hline hlimit
  rw [perform_bind, hperform] at hloop
  have hsingle : (runOnce host launcher line state).perform ⟨tree, limit, []⟩ =
      (.ok (if leaves line then .exited 0 else .returned 0), ⟨t, limit, events⟩) := by
    rw [runOnce, perform_bind, hperform]
    rfl
  dsimp only at hloop
  rw [conducting_of_ok hsingle]
  by_cases hleaves : leaves line = true
  · rw [if_pos hleaves] at hloop ⊢
    rw [conducting_of_ok hloop]
    exact ⟨rfl, rfl, rfl, .inr ⟨.inl rfl, rfl⟩⟩
  · rw [if_neg hleaves] at hloop ⊢
    have hclosing : Message.eventsAt limit ⟨.debug, "End of input, leaving the shell"⟩ = [] :=
      hlimit.closing_eq_nil
    rw [perform_loop_nil] at hloop
    simp only [hclosing] at hloop
    rw [conducting_of_ok hloop]
    refine ⟨rfl, rfl, ?_, .inl ⟨rfl, ?_⟩⟩
    · simp [Outcome.errors, World.after, errorsOf]
    · simp [Outcome.output, World.after, outputOf]

/-- **A line that breaks**, by itself and in a loop. -/
theorem alike_of_error {fault : Fault} (hline : Console.IsUnbroken line) (hlimit : IsTerse limit)
    (hperform : ∀ before, (Session.runLine host launcher line state).perform
      ⟨tree, limit, before⟩ = (.error fault, ⟨t, limit, before ++ events⟩)) :
    Alike prompt (conducting limit (runOnce host launcher line state) tree)
      (conducting limit (interact host launcher prompt state (line ++ ['\n'])) tree) := by
  have hloop := @perform_interact_single host launcher limit prompt line state tree hline hlimit
  rw [perform_bind, hperform] at hloop
  have hsingle : (runOnce host launcher line state).perform ⟨tree, limit, []⟩ =
      (.error fault, ⟨t, limit, events⟩) := by
    rw [runOnce, perform_bind, hperform]
    rfl
  rw [conducting_of_error hsingle, conducting_of_error hloop]
  exact ⟨rfl, rfl, rfl, .inr ⟨.inr rfl, rfl⟩⟩

/-- A line by itself and a loop over it are alike at every terse level. -/
theorem alike_conducting (hline : Console.IsUnbroken line) (hlimit : IsTerse limit) :
    Alike prompt (conducting limit (runOnce host launcher line state) tree)
      (conducting limit (interact host launcher prompt state (line ++ ['\n'])) tree) := by
  -- what a line does depends on the tree and the level, and not on what happened before
  obtain ⟨result, t, events, huniform⟩ :=
    (compositional_uniform launcher).runLine host line state tree
  have hperform (before : List Event) :
      (Session.runLine host launcher line state).perform ⟨tree, limit, before⟩ =
        (result, ⟨t, limit, before ++ events.filter (·.showsAt limit)⟩) :=
    huniform ⟨tree, limit, before⟩ rfl
  cases result with
  | ok next => exact alike_of_ok hline hlimit hperform
  | error fault => exact alike_of_error hline hlimit hperform

end Alike

/-- **A single line** that is run by itself does what it does in a loop over an input that holds
nothing else: the trees, the endings and the error outputs are the same, and the outputs differ
by the prompts and by the line feed at the end of the input. -/
theorem run_single_line_as_loop {host : Host} {line : Text}
    (hlimit : IsTerse (Settings.ofVariables host.environment).level.1)
    (hline : Console.IsUnbroken line) (hhyphen : line.head? ≠ some '-') (launcher : Launcher)
    (input : Text) (tree : Tree) :
    Alike (Settings.ofVariables host.environment).prompt
      (run host launcher ["-c", line] input tree) (run host launcher [] (line ++ ['\n']) tree) := by
  let settings := Settings.ofVariables host.environment
  let notes : List Event :=
    (settings.level.2.filter (settings.level.1.admits ·.level)).map .logged
  have hquiet : Quiet notes := by
    intro event he
    obtain ⟨m, -, rfl⟩ := List.mem_map.mp he
    exact ⟨m, rfl⟩
  let single := conducting settings.level.1 (runOnce host launcher line (State.ofHost host)) tree
  have hsingle : run host launcher ["-c", line] input tree =
      { single with events := notes ++ single.events } := by
    simp only [run, Options.read_command hhyphen, runChoices, chosenLevel, Bool.false_eq_true,
      if_false]
    rfl
  rw [hsingle, run_no_arguments]
  exact (alike_conducting hline hlimit).behind hquiet

/-- A line that makes a directory and launches a program, where no log level is chosen. -/
theorem run_single_line_as_loop_redirected :
    let host : Host := ⟨[], [("PATH", "/bin"), ("MINISH_PROMPT", "> ")], none, 990⟩
    let launcher := Launcher.ofTable [("x", .ok ⟨⟨["a"], none⟩, ⟨["b"], none⟩, 1⟩)] fun _ => []
    let tree := Tree.empty.put ["x", "bin"] (.file [] true)
    let line : Text := "x -c \x27a b\x27 2> new/log"
    host.environment.value? levelVariable = none ∧ Console.IsUnbroken line ∧
      line.head? ≠ some '-' ∧
      Alike "> " (run host launcher ["-c", line] [] tree)
        (run host launcher [] (line ++ ['\n']) tree) := by
  intro host launcher tree line
  have hdefault : host.environment.value? levelVariable = none := by decide
  have hline : Console.IsUnbroken line := ⟨by decide, by decide⟩
  have hhyphen : line.head? ≠ some '-' := by decide
  exact ⟨hdefault, hline, hhyphen,
    run_single_line_as_loop (isTerse_of_default hdefault) hline hhyphen launcher [] tree⟩

end Invocation
end LineShell
