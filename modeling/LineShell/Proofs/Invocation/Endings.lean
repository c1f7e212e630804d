/-
# LineShell.Proofs.Invocation.Endings -- how a run over input lines ends

A loop over input lines ends in one of three ways. It comes to the end of the input, and returns
zero behind a last prompt and a line feed (`EndsWithInput`). It comes to a line that asks to
leave, which does nothing but that, and is left with zero (`LeftBehind`). Or it comes to a line
that ends in a fault which nobody reports, and then it complains and returns one
(`FailedBehind`). Up to there every line was run in order, each from the state that the one
before it left, with a prompt in front of it and nothing else in between; what stands behind the
last line that was run has no effect. The input is the loop's alone: a launcher is not given any
of it, so this is about programs that leave it alone.

The third ending is not meant to exist. It is taken exactly if opening a target breaks, or
launching a program does (`interact_fails_iff`), and there are inputs that take it
(`run_fails_at_nul`). Where no NUL character comes in, one kind of line takes it: a line that asks
for a target with too many missing directories above it (`FreeOfNul.breaksAt_iff`,
`run_fails_at_nested`).
-/

import LineShell.Proofs.Invocation.Loop
import LineShell.Proofs.Session.Contained
import LineShell.Proofs.Session.Plain

namespace LineShell
namespace Invocation

open LineShell.Action

/-! ## Conducting -/

section Conducting

variable {session : Action Ending} {limit : Level} {tree : Tree} {w : World}

theorem conducting_of_ok {ending : Ending} (h : session.perform ⟨tree, limit, []⟩ = (.ok ending, w)) :
    conducting limit session tree = ⟨ending, w.events, w.tree⟩ := by
  rw [conducting, h]

theorem conducting_of_error {fault : Fault}
    (h : session.perform ⟨tree, limit, []⟩ = (.error fault, w)) :
    conducting limit session tree =
      ⟨.returned 1, w.events ++ [.complained ("Error: " ++ fault.message)], w.tree⟩ := by
  rw [conducting, h]

end Conducting

/-! ## Outputs -/

/-- Messages do not show on the output. -/
theorem output_of_quiet {events : List Event} (h : Quiet events) : events.flatMap outputOf = [] := by
  rw [List.flatMap_eq_nil_iff]
  intro event he
  obtain ⟨m, rfl⟩ := h event he
  rfl

section Endings

variable (host : Host) (launcher : Launcher) (limit : Level) (prompt : Text)

/-- What the lines put on the output, with the prompts in front of them. -/
def answered (now : Session.Standing) (lines : List Text) : Text :=
  (Session.run host launcher limit now.state now.tree (lines.map .line)).flatMap
    fun answer => prompt ++ answer.events.flatMap outputOf

theorem output_prompted (now : Session.Standing) (lines : List Text) :
    (prompted host launcher limit prompt now lines).flatMap outputOf =
      answered host launcher limit prompt now lines := by
  rw [prompted, answered, List.flatMap_assoc]
  rfl

/-- The message that opens a loop. -/
def opening (state : State) : List Event :=
  Message.eventsAt limit
    ⟨.info, programName ++ " " ++ version ++ " started in " ++ state.directory⟩

/-- The message at the end of the input. -/
def closing : List Event := Message.eventsAt limit ⟨.debug, "End of input, leaving the shell"⟩

variable {host launcher limit prompt} {state : State} {input : Text} {tree : Tree}
  {lines before rest : List Text} {line : Text}

/-- The loop comes to what stands behind the lines that are passed. -/
theorem perform_interact (hlines : Console.Divides input (before ++ rest))
    (h : Passes host launcher limit ⟨state, tree⟩ before) :
    (interact host launcher prompt state input).perform ⟨tree, limit, []⟩ =
      (loop host launcher prompt (behind host launcher limit ⟨state, tree⟩ before).state
        rest).perform ⟨(behind host launcher limit ⟨state, tree⟩ before).tree, limit,
          opening limit state ++ prompted host launcher limit prompt ⟨state, tree⟩ before⟩ := by
  rw [interact, ← Console.divides_iff.mp hlines, perform_bind, perform_log]
  exact perform_loop_append h rest rfl rfl

/-- If all lines are passed, the loop returns zero behind one more prompt and a line feed. -/
theorem conducting_of_passes (hlines : Console.Divides input lines)
    (h : Passes host launcher limit ⟨state, tree⟩ lines) :
    conducting limit (interact host launcher prompt state input) tree =
      ⟨.returned 0, opening limit state ++
          (prompted host launcher limit prompt ⟨state, tree⟩ lines ++
            .wrote prompt :: (closing limit ++ [.printed []])),
        (behind host launcher limit ⟨state, tree⟩ lines).tree⟩ := by
  have hinput : Console.Divides input (lines ++ []) := by rwa [List.append_nil]
  rw [conducting_of_ok ((perform_interact hinput h).trans (perform_loop_nil _))]
  rw [World.events_after, List.append_assoc]
  rfl

/-- A line that asks to leave ends the loop with zero where it is reached. -/
theorem conducting_of_exit (hlines : Console.Divides input (before ++ line :: rest))
    (h : Passes host launcher limit ⟨state, tree⟩ before)
    (hexit : (CommandLine.ofLine line).command = "exit 0") :
    ∃ events, Quiet events ∧ conducting limit (interact host launcher prompt state input) tree =
      ⟨.exited 0, opening limit state ++
          (prompted host launcher limit prompt ⟨state, tree⟩ before ++
            .wrote prompt :: (events ++ [.exited 0])),
        (behind host launcher limit ⟨state, tree⟩ before).tree⟩ := by
  let w : World := ⟨(behind host launcher limit ⟨state, tree⟩ before).tree, limit,
    opening limit state ++ prompted host launcher limit prompt ⟨state, tree⟩ before⟩
  obtain ⟨events, hquiet, hloop⟩ := @perform_loop_exit host launcher prompt line
    (behind host launcher limit ⟨state, tree⟩ before).state hexit rest w
  refine ⟨events, hquiet, ?_⟩
  rw [conducting_of_ok ((perform_interact hlines h).trans hloop), World.events_after,
    List.append_assoc]
  rfl

/-- A line that breaks ends the loop with one and a complaint. -/
theorem conducting_of_breaks {fault : Fault}
    (hlines : Console.Divides input (before ++ line :: rest))
    (h : Passes host launcher limit ⟨state, tree⟩ before)
    (hbreaks : BreaksAt host launcher limit (behind host launcher limit ⟨state, tree⟩ before) line
      fault) :
    conducting limit (interact host launcher prompt state input) tree =
      let last := (stepAt host launcher limit (behind host launcher limit ⟨state, tree⟩ before)
        line).2
      ⟨.returned 1, opening limit state ++
          (prompted host launcher limit prompt ⟨state, tree⟩ before ++
            .wrote prompt :: (last.events ++ [.complained ("Error: " ++ fault.message)])),
        last.tree⟩ := by
  let there := behind host launcher limit ⟨state, tree⟩ before
  let w : World := ⟨there.tree, limit,
    opening limit state ++ prompted host launcher limit prompt ⟨state, tree⟩ before⟩
  have hloop := @perform_loop_breaks host launcher limit prompt there line w fault hbreaks rest
    rfl rfl
  rw [conducting_of_error ((perform_interact hlines h).trans hloop), World.events_after,
    List.append_assoc, List.append_assoc]
  rfl

/-! ## The three endings -/

section Kinds

variable (host : Host) (launcher : Launcher) (limit : Level) (prompt : Text)
  (now : Session.Standing)

/-- **Ends with the input** — all lines were run, and there is one more prompt and a line feed. -/
structure EndsWithInput (lines : List Text) (ended : Outcome) : Prop where
  ending : ended.ending = .returned 0
  tree : ended.tree = (behind host launcher limit now lines).tree
  /-- Every line was run once and in order, behind a prompt. -/
  events : ended.events = opening limit now.state ++
    (prompted host launcher limit prompt now lines ++
      .wrote prompt :: (closing limit ++ [.printed []]))
  output : ended.output = answered host launcher limit prompt now lines ++ (prompt ++ ['\n'])

/-- **Left behind** some lines — they were run, and the next one asked to leave. It has only been
prompted for; nothing has become of it or of what stands behind it. -/
structure LeftBehind (before : List Text) (ended : Outcome) : Prop where
  ending : ended.ending = .exited 0
  tree : ended.tree = (behind host launcher limit now before).tree
  events : ∃ notes, Quiet notes ∧ ended.events = opening limit now.state ++
    (prompted host launcher limit prompt now before ++ .wrote prompt :: (notes ++ [.exited 0]))
  output : ended.output = answered host launcher limit prompt now before ++ prompt

/-- **Failed behind** some lines — they were run, and the next one ended in a fault that is
complained about. -/
structure FailedBehind (before : List Text) (line : Text) (fault : Fault) (ended : Outcome) :
    Prop where
  ending : ended.ending = .returned 1
  tree : ended.tree =
    (stepAt host launcher limit (behind host launcher limit now before) line).2.tree
  events : ended.events = opening limit now.state ++
    (prompted host launcher limit prompt now before ++ .wrote prompt ::
      ((stepAt host launcher limit (behind host launcher limit now before) line).2.events ++
        [.complained ("Error: " ++ fault.message)]))

end Kinds

section Reached

variable {now : Session.Standing}

theorem endsWithInput_of_passes (hlines : Console.Divides input lines)
    (h : Passes host launcher limit now lines) :
    EndsWithInput host launcher limit prompt now lines
      (conducting limit (interact host launcher prompt now.state input) now.tree) := by
  have hopening : (opening limit now.state).flatMap outputOf = [] :=
    output_of_quiet (quiet_eventsAt _ _)
  have hclosing : (closing limit).flatMap outputOf = [] := output_of_quiet (quiet_eventsAt _ _)
  rw [conducting_of_passes hlines h]
  refine ⟨rfl, rfl, rfl, ?_⟩
  simp [Outcome.output, output_prompted, hopening, hclosing, outputOf]

theorem leftBehind_of_exit (hlines : Console.Divides input (before ++ line :: rest))
    (h : Passes host launcher limit now before)
    (hexit : (CommandLine.ofLine line).command = "exit 0") :
    LeftBehind host launcher limit prompt now before
      (conducting limit (interact host launcher prompt now.state input) now.tree) := by
  have hopening : (opening limit now.state).flatMap outputOf = [] :=
    output_of_quiet (quiet_eventsAt _ _)
  obtain ⟨notes, hquiet, hconduct⟩ := @conducting_of_exit host launcher limit prompt now.state
    input now.tree before rest line hlines h hexit
  rw [hconduct]
  refine ⟨rfl, rfl, ⟨notes, hquiet, rfl⟩, ?_⟩
  simp [Outcome.output, output_prompted, hopening, output_of_quiet hquiet, outputOf]

theorem failedBehind_of_breaks {fault : Fault}
    (hlines : Console.Divides input (before ++ line :: rest))
    (h : Passes host launcher limit now before)
    (hbreaks : BreaksAt host launcher limit (behind host launcher limit now before) line fault) :
    FailedBehind host launcher limit prompt now before line fault
      (conducting limit (interact host launcher prompt now.state input) now.tree) := by
  rw [conducting_of_breaks hlines h hbreaks]
  exact ⟨rfl, rfl, rfl⟩

end Reached

/-! ## The shell without arguments -/

/-- Without arguments the shell is the loop over its input, behind the messages about its
settings. -/
theorem run_no_arguments (host : Host) (launcher : Launcher) (input : Text) (tree : Tree) :
    let settings := Settings.ofVariables host.environment
    let looped := conducting settings.level.1
      (interact host launcher settings.prompt (State.ofHost host) input) tree
    run host launcher [] input tree = { looped with
      events := (settings.level.2.filter (settings.level.1.admits ·.level)).map .logged ++
        looped.events } := by
  intro settings looped
  have hread : Options.read [] = .run ⟨none, none, false⟩ := rfl
  simp only [run, hread, runChoices, chosenLevel, Bool.false_eq_true, if_false]
  rfl

/-- What the loop shows is what the shell without arguments shows. -/
theorem run_no_arguments_seen (host : Host) (launcher : Launcher) (input : Text) (tree : Tree) :
    let settings := Settings.ofVariables host.environment
    let looped := conducting settings.level.1
      (interact host launcher settings.prompt (State.ofHost host) input) tree
    let whole := run host launcher [] input tree
    whole.ending = looped.ending ∧ whole.output = looped.output ∧ whole.tree = looped.tree := by
  intro settings looped whole
  let notes : List Event :=
    (settings.level.2.filter (settings.level.1.admits ·.level)).map .logged
  have hwhole : whole = { looped with events := notes ++ looped.events } :=
    run_no_arguments host launcher input tree
  have hquiet : Quiet notes := by
    intro event he
    obtain ⟨m, -, rfl⟩ := List.mem_map.mp he
    exact ⟨m, rfl⟩
  have houtput : whole.output = notes.flatMap outputOf ++ looped.output :=
    (congrArg Outcome.output hwhole).trans List.flatMap_append
  rw [output_of_quiet hquiet, List.nil_append] at houtput
  refine ⟨?_, houtput, ?_⟩ <;> rw [hwhole]

/-! ## Any input -/

/-- The loop comes past its lines or is left behind some of them, with zero, or it fails behind
some with one. -/
theorem ending_cases (hlines : Console.Divides input lines) (now : Session.Standing) :
    let ended := conducting limit (interact host launcher prompt now.state input) now.tree
    ended.ending.code = 0 ∧ (Passes host launcher limit now lines ∧
        EndsWithInput host launcher limit prompt now lines ended ∨
      ∃ before line rest, lines = before ++ line :: rest ∧
        Passes host launcher limit now before ∧ (CommandLine.ofLine line).command = "exit 0" ∧
        LeftBehind host launcher limit prompt now before ended) ∨
    ended.ending.code = 1 ∧ ∃ before line rest fault, lines = before ++ line :: rest ∧
      Passes host launcher limit now before ∧
      BreaksAt host launcher limit (behind host launcher limit now before) line fault := by
  intro ended
  rcases passes_or_cut host launcher limit now lines with
    h | ⟨before, line, rest, rfl, h, hexit | ⟨fault, hbreaks⟩⟩
  · have hends : EndsWithInput host launcher limit prompt now lines ended :=
      endsWithInput_of_passes hlines h
    exact .inl ⟨congrArg Ending.code hends.ending, .inl ⟨h, hends⟩⟩
  · have hleft : LeftBehind host launcher limit prompt now before ended :=
      leftBehind_of_exit hlines h hexit
    exact .inl ⟨congrArg Ending.code hleft.ending,
      .inr ⟨before, line, rest, rfl, h, hexit, hleft⟩⟩
  · have hfailed : FailedBehind host launcher limit prompt now before line fault ended :=
      failedBehind_of_breaks hlines h hbreaks
    exact .inr ⟨congrArg Ending.code hfailed.ending, before, line, rest, fault, rfl, h, hbreaks⟩

/-- **The loop fails** exactly if a line is reached for which opening a target breaks, or
launching a program. In all other cases it ends with zero, and every line up to the first one
that asks to leave was run, or up to the end of the input. The shell without arguments ends as
its loop does. -/
theorem interact_fails_iff (host : Host) (launcher : Launcher) (limit : Level) (prompt : Text)
    (state : State) (input : Text) (tree : Tree) :
    let now : Session.Standing := ⟨state, tree⟩
    let lines := Console.inputLines (Text.plainNewlines input)
    let ended := conducting limit (interact host launcher prompt state input) tree
    let settings := Settings.ofVariables host.environment
    (ended.ending.code = 1 ↔ ∃ before line rest fault, lines = before ++ line :: rest ∧
      Passes host launcher limit now before ∧
      let there := behind host launcher limit now before
      let w : World := ⟨there.tree, limit, []⟩
      let parsed := CommandLine.ofLine line
      (Builtin.ReachesTarget host there.state there.tree parsed.command ∧
        Builtin.TargetBreaks host parsed there.state.directory w fault) ∨
      ∃ name arguments executable,
        Program.Calls host there.state there.tree parsed.command name arguments executable ∧
        Program.LaunchBreaks host launcher parsed there.state (name :: arguments) executable w
          fault) ∧
    (ended.ending.code ≠ 1 → ended.ending.code = 0 ∧ (Passes host launcher limit now lines ∧
        EndsWithInput host launcher limit prompt now lines ended ∨
      ∃ before line rest, lines = before ++ line :: rest ∧
        Passes host launcher limit now before ∧ (CommandLine.ofLine line).command = "exit 0" ∧
        LeftBehind host launcher limit prompt now before ended)) ∧
    (run host launcher [] input tree).ending = (conducting settings.level.1
      (interact host launcher settings.prompt (State.ofHost host) input) tree).ending := by
  intro now lines ended settings
  have hlines : Console.Divides input lines := Console.divides_iff.mpr rfl
  have hcases := @ending_cases host launcher limit prompt input lines hlines now
  refine ⟨⟨fun hcode => ?_, ?_⟩, fun hcode => ?_,
    (run_no_arguments_seen host launcher input tree).1⟩
  · rcases hcases with ⟨hzero, -⟩ | ⟨-, before, line, rest, fault, hcut, h, hbreaks⟩
    · exact absurd (hzero.symm.trans hcode) (by decide)
    · exact ⟨before, line, rest, fault, hcut, h, Session.breaks_runLine_iff.mp hbreaks⟩
  · rintro ⟨before, line, rest, fault, hcut, h, hcauses⟩
    have hbreaks : BreaksAt host launcher limit (behind host launcher limit now before) line
        fault := Session.breaks_runLine_iff.mpr hcauses
    have hone : ended.ending = .returned 1 :=
      (failedBehind_of_breaks (hcut ▸ hlines) h hbreaks).ending
    exact congrArg Ending.code hone
  · rcases hcases with hends | ⟨hone, -⟩
    · exact hends
    · exact absurd hone hcode

/-- The name of a target holds a NUL, and the line behind it is never read. -/
theorem run_fails_at_nul :
    let input : Text := "echo x > a\x00b\npwd\n"
    let ended := run ⟨[], [], none, 990⟩ (.ofTable [] fun _ => []) [] input Tree.empty
    ended.ending = .returned 1 ∧ ended.output = "$ " ∧
      ended.errors = "Error: embedded null byte\n" := by
  decide +kernel

/-! ## Sessions free of NUL characters -/

section FreeOfNul

variable (host : Host) (launcher : Launcher) (now : Session.Standing) (input : Text)

/-- **Free of NUL** — no NUL character comes in by the input, by the directories that the shell
and its host work in, or by links; and launches fail with nothing but system errors then. -/
structure FreeOfNul : Prop where
  input_plain : '\x00' ∉ input
  host_plain : host.directory.IsPlain
  session_plain : now.IsPlain now.state.environment
  starts : launcher.StartsTame now.state.environment
  keeps : launcher.KeepsPlain

variable {host launcher now input}

/-- Where a session is free of NUL, a line that is reached breaks exactly if it asks too deep. -/
theorem FreeOfNul.breaksAt_iff (h : FreeOfNul host launcher now input)
    (hlines : Console.Divides input lines) (hline : line ∈ lines) (before : List Text)
    {fault : Fault} :
    let there := behind host launcher limit now before
    BreaksAt host launcher limit there line fault ↔
      fault = .tooDeep ∧ Session.AsksTooDeep host there.state there.tree line := by
  intro there
  have hthere : there.IsPlain now.state.environment := h.session_plain.standing h.keeps h.host_plain limit _
  have hstarts : launcher.StartsTame there.state.environment := hthere.environment_eq ▸ h.starts
  have hnul : '\x00' ∉ line := fun hmem => h.input_plain (hlines.mem_of_mem hline hmem)
  exact Session.breaks_runLine_iff_asksTooDeep hstarts hnul hthere.directory

end FreeOfNul

/-- **The endings of a loop** — an input is divided into lines. If all of them are passed, the
loop ends with the input. If those before a line are passed, it is left behind them if the line
asks for it, and fails behind them if the line breaks. There is no other case. Blank lines are
passed, and nothing happens in them. The shell without arguments shows what its loop does. Where
the session is free of NUL, a line breaks only by asking too deep. -/
theorem interact_endings (hlines : Console.Divides input lines) :
    let now : Session.Standing := ⟨state, tree⟩
    let ended := conducting limit (interact host launcher prompt state input) tree
    (Passes host launcher limit now lines →
      EndsWithInput host launcher limit prompt now lines ended) ∧
    (∀ before line rest, lines = before ++ line :: rest →
      Passes host launcher limit now before → (CommandLine.ofLine line).command = "exit 0" →
      LeftBehind host launcher limit prompt now before ended) ∧
    (∀ before line rest fault, lines = before ++ line :: rest →
      Passes host launcher limit now before →
      BreaksAt host launcher limit (behind host launcher limit now before) line fault →
      FailedBehind host launcher limit prompt now before line fault ended) ∧
    (Passes host launcher limit now lines ∨
      ∃ before line rest, lines = before ++ line :: rest ∧ Passes host launcher limit now before ∧
        ((CommandLine.ofLine line).command = "exit 0" ∨
          ∃ fault, BreaksAt host launcher limit (behind host launcher limit now before) line
            fault)) ∧
    (∀ (there : Session.Standing) (line : Text), Text.allBlank line = true →
      Passes host launcher limit there [line] ∧
        stepAt host launcher limit there line =
          (⟨there.state, none, none⟩, ⟨there.tree, limit, []⟩)) ∧
    (let settings := Settings.ofVariables host.environment
      let looped := conducting settings.level.1
        (interact host launcher settings.prompt (State.ofHost host) input) tree
      let whole := run host launcher [] input tree
      whole.ending = looped.ending ∧ whole.output = looped.output ∧ whole.tree = looped.tree) ∧
    (FreeOfNul host launcher now input → ∀ before line rest fault, lines = before ++ line :: rest →
      let there := behind host launcher limit now before
      (BreaksAt host launcher limit there line fault ↔
        fault = .tooDeep ∧ Session.AsksTooDeep host there.state there.tree line)) := by
  intro now ended
  refine ⟨endsWithInput_of_passes hlines, ?_, ?_, passes_or_cut _ _ _ _ _,
    fun there line h => passes_blank h, run_no_arguments_seen host launcher input tree, ?_⟩
  · rintro before line rest rfl h hexit
    exact leftBehind_of_exit hlines h hexit
  · rintro before line rest fault rfl h hbreaks
    exact failedBehind_of_breaks hlines h hbreaks
  · rintro hfree before line rest fault rfl
    exact hfree.breaksAt_iff hlines (List.mem_append_right _ List.mem_cons_self) before

/-- A line is run, the next one asks to leave and has a target, and the last is not read. -/
theorem interact_endings_two_lines :
    let host : Host := ⟨[], [], none, 990⟩
    let launcher : Launcher := .ofTable [] fun _ => []
    let now : Session.Standing := ⟨⟨"/", []⟩, Tree.empty⟩
    let input : Text := "pwd\r\nexit 0 > f\rls"
    let ended := conducting .debug (interact host launcher "$ " now.state input) now.tree
    FreeOfNul host launcher now input ∧ Passes host launcher .debug now ["pwd"] ∧
      LeftBehind host launcher .debug "$ " now ["pwd"] ended := by
  intro host launcher now input ended
  have hlast : Console.Divides "ls" ["ls"] := .last ⟨by decide, by decide⟩ (by decide)
  have hexit : Console.Divides "exit 0 > f\rls" ["exit 0 > f", "ls"] :=
    @Console.Divides.ended "exit 0 > f" "ls" ["ls"] .carriageReturn ⟨by decide, by decide⟩
      (by decide) hlast
  have hlines : Console.Divides input ["pwd", "exit 0 > f", "ls"] :=
    @Console.Divides.ended "pwd" _ _ .both ⟨by decide, by decide⟩ (by decide) hexit
  have hfree : FreeOfNul host launcher now input :=
    ⟨by decide, .nil, ⟨rfl, by decide, Tree.plainLinks_empty⟩, Launcher.startsTame_ofTable _ _ _,
      (Launcher.keepsTree_ofTable _ _).keepsPlain⟩
  obtain ⟨-, hleft, -, -, -, -, hbreaks⟩ := @interact_endings host launcher .debug "$ " now.state
    input now.tree _ hlines
  have hpasses : Passes host launcher .debug now ["pwd"] := by
    refine ⟨by decide, fun fault hfault => ?_, trivial⟩
    -- the line has no target
    obtain ⟨-, -, path, hpath, -⟩ := (hbreaks hfree [] "pwd" _ fault rfl).mp hfault
    exact absurd hpath (by decide +revert)
  exact ⟨hfree, hpasses, hleft ["pwd"] "exit 0 > f" ["ls"] rfl hpasses (by decide)⟩

end Endings

/-- An input without NUL characters: its first line asks for a file below fifteen hundred
directories that are missing. -/
theorem run_fails_at_nested :
    let host : Host := ⟨[], [], none, 990⟩
    let launcher : Launcher := .ofTable [] fun _ => []
    let input : Text := Session.nestedLine 1500 ++ "\npwd\n"
    '\x00' ∉ input ∧ Console.Divides input [Session.nestedLine 1500, "pwd"] ∧
      (CommandLine.ofLine (Session.nestedLine 1500)).command ≠ "exit 0" ∧
      (run host launcher [] input Tree.empty).ending = .returned 1 := by
  intro host launcher input
  have hnul : '\x00' ∉ Session.nestedLine 1500 := Session.not_mem_nestedLine (by decide) 1500
  have hsecond : Console.Divides "pwd\n" ["pwd"] :=
    @Console.Divides.ended "pwd" [] [] .lineFeed ⟨by decide, by decide⟩ (by decide) .done
  have hlines : Console.Divides input [Session.nestedLine 1500, "pwd"] :=
    .ended .lineFeed ⟨Session.not_mem_nestedLine (by decide) 1500,
      Session.not_mem_nestedLine (by decide) 1500⟩ (by decide) hsecond
  have hdeep : Session.AsksTooDeep host ⟨"/", []⟩ Tree.empty (Session.nestedLine 1500) :=
    Session.asksTooDeep_nestedLine host [] (by decide) (by decide)
  have hbreaks : BreaksAt host launcher .error ⟨⟨"/", []⟩, Tree.empty⟩
      (Session.nestedLine 1500) .tooDeep :=
    (Session.breaks_runLine_iff_asksTooDeep (Launcher.startsTame_ofTable _ _ _) hnul
      (by decide)).mpr ⟨rfl, hdeep⟩
  refine ⟨?_, hlines, ?_, ?_⟩
  · intro hmem
    rcases List.mem_append.mp hmem with hmem | hmem
    · exact hnul hmem
    · exact absurd hmem (by decide)
  · rw [Session.ofLine_nestedLine]
    decide
  · have hfails := @failedBehind_of_breaks host launcher .error "$ " input [] ["pwd"]
      (Session.nestedLine 1500) ⟨⟨"/", []⟩, Tree.empty⟩ .tooDeep hlines trivial hbreaks
    -- a host without variables has the default settings
    exact (run_no_arguments_seen host launcher input Tree.empty).1.trans hfails.ending

end Invocation
end LineShell
