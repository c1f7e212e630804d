/-
# LineShell.Proofs.Session.Breaks -- which lines end in a fault that is not reported

A line can break at two points: where its target is opened, and where a program is launched
for it. Everything else that a command does ends well or in a system error, which the line
reports. `breaks_dispatch_iff` says so exactly, for any launcher: the target breaks a command
that comes as far as opening it (`ReachesTarget`), and a launch breaks it if all that comes
before has succeeded (`LaunchBreaks`).

What a step does depends on the log level in no other way than by the messages that are
dropped, so whether it breaks is a question about the tree that it begins in
(`Uniform.breaks_iff`).
-/

import LineShell.Proofs.CommandLine.LastClause
import LineShell.Proofs.Session.Levels
import LineShell.Proofs.Session.Redirected
import LineShell.Proofs.Target.Breaks

namespace LineShell

/-- Whether an action breaks is a question about the tree, if it does the same at every
level. -/
theorem Action.Uniform.breaks_iff {α : Type} {x : Action α} (h : x.Uniform) {w w' : World}
    {fault : Fault} (htree : w'.tree = w.tree) : Breaks x w' fault ↔ Breaks x w fault := by
  have hresult : (x.run.run w').1 = (x.run.run w).1 := h.result_eq htree
  rw [Breaks, Breaks, hresult]

/-! ## Draining -/

/-- **Tame** — the drain has not failed, or with a system error. -/
def Drain.IsTame (d : Drain) : Prop :=
  ∀ fault, d.condition = .failed fault → fault.isSystem = true

namespace Drain

theorem isTame_start (stream : Stream) (sink : Sink) : (start stream sink).IsTame := by
  intro fault h
  exact absurd h (by simp [start])

/-- A drain fails with the failure of its stream, or because its sink is full. -/
theorem IsTame.turn {d : Drain} (h : d.IsTame) (channel : Channel) :
    (d.turn channel).1.IsTame := by
  obtain ⟨⟨lines, failure⟩, sink, condition⟩ := d
  unfold Drain.turn
  split
  · split
    · exact h
    · split
      · exact h
      · intro fault hfault
        rw [← Condition.failed.inj hfault]
        rfl
  · split
    · intro fault hfault
      exact absurd hfault (by simp)
    · intro fault hfault
      rw [← Condition.failed.inj hfault]
      rfl
  · exact h

end Drain

namespace Draining

theorem isTame_run {d : Draining} (houtput : d.output.IsTame) (herror : d.error.IsTame)
    (schedule : List Channel) :
    (d.run schedule).1.output.IsTame ∧ (d.run schedule).1.error.IsTame := by
  induction schedule generalizing d with
  | nil => exact ⟨houtput, herror⟩
  | cons channel rest ih =>
    cases channel with
    | output => exact ih (houtput.turn .output) herror
    | error => exact ih houtput (herror.turn .error)

/-- Tame drains come to a tame outcome: the failure of the output, or else of the errors. -/
theorem tame_outcome {d : Draining} (houtput : d.output.IsTame) (herror : d.error.IsTame) :
    Tame d.outcome := by
  intro fault hfault
  unfold outcome at hfault
  split at hfault
  · rename_i hfailed
    rw [← Except.error.inj hfault]
    exact houtput _ hfailed
  · rename_i hfailed _
    rw [← Except.error.inj hfault]
    exact herror _ hfailed
  · exact absurd hfault (by simp)

/-- Draining a program comes to nothing worse than a system error. -/
theorem tame_outcome_complete (child : Child) (output error : Sink) (turns : List Channel) :
    Tame ((start child output error).complete turns).1.outcome := by
  obtain ⟨houtput, herror⟩ := @isTame_run (start child output error) (Drain.isTame_start _ _)
    (Drain.isTame_start _ _) (turns ++ ((start child output error).run turns).1.schedule)
  exact tame_outcome houtput herror

end Draining

/-! ## Running a program -/

namespace Program

/-- Opening the sinks of a command line, the output before the errors. -/
def openSinks (host : Host) (line : CommandLine) (directory : Text) : Action (Sink × Sink) := do
  let output ← Sink.ofTarget host directory line.output
  let error ← Sink.ofTarget host directory line.error
  return (output, error)

/-- **Launch breaks** — the sinks of the command line open, and the launch in the tree that is
left then ends in a fault that is no system error. -/
def LaunchBreaks (host : Host) (launcher : Launcher) (line : CommandLine) (state : State)
    (arguments : List Text) (executable : Text) (w : World) (fault : Fault) : Prop :=
  ∃ output error w', (openSinks host line state.directory).perform w = (.ok (output, error), w') ∧
    launcher.start w'.tree (output.place?.toList ++ error.place?.toList)
      (launchOf state arguments executable) = .error fault ∧ fault.isSystem = false

/-- Conducting a program hands out the fault of its launch, or an outcome that is tame. -/
theorem conduct_cases (launcher : Launcher) (launch : Launch) (output error : Sink) (w : World) :
    ∃ output' error' outcome w',
      (conduct launcher launch output error).perform w = (.ok (output', error', outcome), w') ∧
      match launcher.start w.tree (output.place?.toList ++ error.place?.toList) launch with
      | .error fault => output' = output ∧ error' = error ∧ outcome = .error fault
      | .ok _ => Tame outcome := by
  have hconduct := perform_conduct launcher launch output error w
  rcases hstart : launcher.start w.tree (output.place?.toList ++ error.place?.toList) launch with
    fault | ⟨child, t⟩
  · simp only [hstart] at hconduct
    exact ⟨output, error, .error fault, _, hconduct, rfl, rfl, rfl⟩
  · simp only [hstart] at hconduct
    rw [perform_drain_eq] at hconduct
    exact ⟨_, _, _, _, hconduct,
      (Draining.tame_outcome_complete child output error _).map fun _ => child.status⟩

section Found

variable {host : Host} {launcher : Launcher} {line : CommandLine} {state : State}
  {name executable : Text} {arguments : List Text} {w w' : World} {fault : Fault}

/-- The sinks are opened in turn. -/
theorem perform_openSinks_of_output {directory : Text} {output : Sink} {w₁ : World}
    (h : (Sink.ofTarget host directory line.output).perform w = (.ok output, w₁)) :
    (openSinks host line directory).perform w =
      (Sink.ofTarget host directory line.error >>= fun error => pure (output, error)).perform w₁ := by
  rw [openSinks, Action.perform_bind, h]

theorem not_launchBreaks_of_error {fault' : Fault}
    (h : (openSinks host line state.directory).perform w = (.error fault', w')) :
    ¬ LaunchBreaks host launcher line state arguments executable w fault := by
  rintro ⟨output, error, w'', hopen, -⟩
  rw [h] at hopen
  exact absurd (congrArg Prod.fst hopen) (by simp)

theorem launchBreaks_iff_of_opened {output error : Sink}
    (h : (openSinks host line state.directory).perform w = (.ok (output, error), w')) :
    LaunchBreaks host launcher line state arguments executable w fault ↔
      launcher.start w'.tree (output.place?.toList ++ error.place?.toList)
        (launchOf state arguments executable) = .error fault ∧ fault.isSystem = false := by
  constructor
  · rintro ⟨output', error', w'', hopen, hstart⟩
    rw [h, Prod.mk.injEq] at hopen
    obtain ⟨hsinks, rfl⟩ := hopen
    obtain ⟨rfl, rfl⟩ := Prod.mk.inj (Except.ok.inj hsinks)
    exact hstart
  · exact fun hstart => ⟨output, error, w', h, hstart⟩

/-- Once both sinks are open it is left to the launch whether a program breaks. -/
theorem breaks_runFound_of_opened {output error : Sink} {w₁ w₂ : World}
    (houtput : (Sink.ofTarget host state.directory line.output).perform w = (.ok output, w₁))
    (herror : (Sink.ofTarget host state.directory line.error).perform w₁ = (.ok error, w₂)) :
    Breaks (runFound host launcher line state name arguments executable) w fault ↔
      launcher.start w₂.tree (output.place?.toList ++ error.place?.toList)
        (launchOf state (name :: arguments) executable) = .error fault ∧
      fault.isSystem = false := by
  obtain ⟨output', error', outcome, w₃, hconduct, hcases⟩ := conduct_cases launcher
    (launchOf state (name :: arguments) executable) output error w₂
  have hrun := perform_runFound houtput herror hconduct
  rcases hstart : launcher.start w₂.tree (output.place?.toList ++ error.place?.toList)
    (launchOf state (name :: arguments) executable) with fault' | started
  · rw [hstart] at hcases
    obtain ⟨rfl, rfl, rfl⟩ := hcases
    -- nothing was written to the sinks, so closing them hides nothing
    rw [Sink.settled_of_ofTarget _ herror, Sink.settled_of_ofTarget _ houtput] at hrun
    rw [breaks_iff_of_run hrun]
    simp only [Except.error.injEq]
  · rw [hstart] at hcases
    have htame := output'.tame_settled (error'.tame_settled hcases)
    refine iff_of_false ?_ (by simp)
    rcases hsettled : output'.settled (error'.settled outcome) with fault' | status <;>
      rw [hsettled] at hrun
    · obtain ⟨failure, rfl⟩ := Fault.exists_system (htame fault' hsettled)
      exact not_breaks_of_system hrun
    · exact not_breaks_of_ok hrun

/-- **A program that was found** breaks where its targets do or where its launch does. -/
theorem breaks_runFound_iff :
    Breaks (runFound host launcher line state name arguments executable) w fault ↔
      Breaks (openSinks host line state.directory) w fault ∨
        LaunchBreaks host launcher line state (name :: arguments) executable w fault := by
  rcases houtput : (Sink.ofTarget host state.directory line.output).perform w with
    ⟨fault' | output, w₁⟩
  · -- the output target does not open
    have hopen : (openSinks host line state.directory).perform w = (.error fault', w₁) := by
      rw [openSinks, Action.perform_bind, houtput]
    rw [or_iff_left (not_launchBreaks_of_error hopen), runFound, openSinks,
      breaks_bind_of_error houtput, breaks_bind_of_error houtput]
  have hsinks := perform_openSinks_of_output houtput
  rw [Action.perform_bind] at hsinks
  rcases herror : (Sink.ofTarget host state.directory line.error).perform w₁ with
    ⟨fault' | error, w₂⟩ <;> rw [herror] at hsinks
  · -- the error target does not open, and the output is closed again
    have hrun : ((runFound host launcher line state name arguments executable).perform w).1 =
        .error fault' := by
      simp only [runFound, Action.perform_bind, houtput, Action.perform_attempt, herror,
        Sink.perform_close, Action.perform_ofExcept, Sink.settled_of_ofTarget _ houtput]
    rw [or_iff_left (not_launchBreaks_of_error hsinks), breaks_iff_of_run hsinks,
      breaks_iff_of_result hrun]
    simp only [Except.error.injEq]
  · rw [or_iff_right (not_breaks_of_ok hsinks), launchBreaks_iff_of_opened hsinks]
    exact breaks_runFound_of_opened houtput herror

/-! ## Targets of split lines -/

/-- The one target of a split line is all that can break when its sinks are opened. -/
theorem breaks_openSinks_iff {directory : Text} (hsingle : line.IsSingle) :
    Breaks (openSinks host line directory) w fault ↔
      ∃ path, line.target? = some path ∧ Breaks (Target.openWriter host path directory) w fault := by
  rcases hout : line.output with _ | path
  · have hfirst : (Sink.ofTarget host directory line.output).perform w = (.ok .console, w) := by
      rw [hout, Sink.perform_ofTarget_none]
    rw [openSinks, breaks_bind_of_ok hfirst, breaks_bind_iff fun error => sturdy_pure _,
      Sink.breaks_ofTarget_iff, CommandLine.target?, hout, Option.none_or]
  · have herror : line.error = none := hsingle.resolve_left (by simp [hout])
    have hsecond : Sturdy (Sink.ofTarget host directory line.error) := by
      rw [herror]
      exact sturdy_pure Sink.console
    rw [openSinks, breaks_bind_iff fun output => hsecond.bind fun error => sturdy_pure _,
      Sink.breaks_ofTarget_iff, CommandLine.target?, hout, Option.some_or]

/-! ## Running what a command names -/

/-- **Calls** — the command is left to the programs, and its first word names one that the
search path holds. -/
structure Calls (host : Host) (state : State) (t : Tree) (command name : Text)
    (arguments : List Text) (executable : Text) : Prop where
  verb : Verb.ofCommand command = .program
  words : words command = name :: arguments
  found : Search.program t host.directory (Search.pathOf host state.environment) name =
    .ok (some executable)

/-- A command calls what the look-up of its first word finds. -/
theorem Calls.eq_of_words {t : Tree} {command other : Text} {more : List Text}
    (h : Calls host state t command other more executable)
    (hwords : LineShell.words command = name :: arguments) :
    other = name ∧ more = arguments ∧
      Search.program t host.directory (Search.pathOf host state.environment) name =
        .ok (some executable) := by
  obtain ⟨rfl, rfl⟩ := List.cons.inj (hwords.symm.trans h.words)
  exact ⟨rfl, rfl, h.found⟩

theorem breaks_run_iff (hverb : Verb.ofCommand line.command = .program) :
    Breaks (run host launcher line state) w fault ↔
      ∃ name arguments executable, Calls host state w.tree line.command name arguments executable ∧
        Breaks (runFound host launcher line state name arguments executable) w fault := by
  unfold run
  rcases hwords : words line.command with _ | ⟨name, arguments⟩
  · refine iff_of_false (sturdy_pure none w fault) ?_
    rintro ⟨name, arguments, executable, hcalls, -⟩
    exact absurd (hwords.symm.trans hcalls.words) (by simp)
  have hfind := perform_find host state.environment name w
  rcases hfound : Search.program w.tree host.directory (Search.pathOf host state.environment)
    name with failure | _ | executable <;> rw [hfound] at hfind
  · -- the look-up fails, with a system error
    rw [breaks_bind_of_error hfind]
    refine iff_of_false (not_breaks_of_system hfind) ?_
    rintro ⟨other, more, executable, hcalls, -⟩
    exact absurd (hfound.symm.trans (hcalls.eq_of_words hwords).2.2) (by simp)
  · rw [breaks_bind_of_ok hfind]
    refine iff_of_false ((Action.sturdy_printLine _).bind (fun _ => sturdy_pure _) _ fault) ?_
    rintro ⟨other, more, executable, hcalls, -⟩
    exact absurd (hfound.symm.trans (hcalls.eq_of_words hwords).2.2) (by simp)
  · have huniform := (Action.compositional_uniform launcher).runFound host line state name
      arguments executable
    rw [breaks_bind_of_ok hfind]
    dsimp only
    rw [breaks_bind_iff fun status => sturdy_pure _,
      huniform.breaks_iff (World.tree_after w w.tree _)]
    constructor
    · exact fun h => ⟨name, arguments, executable, ⟨hverb, hwords, hfound⟩, h⟩
    · rintro ⟨other, more, executable', hcalls, h⟩
      obtain ⟨rfl, rfl, hfound'⟩ := hcalls.eq_of_words hwords
      obtain rfl := Option.some.inj (Except.ok.inj (hfound.symm.trans hfound'))
      exact h

end Found

end Program

/-! ## Commands -/

namespace Builtin

section Dispatch

variable {host : Host} {launcher : Launcher} {line : CommandLine} {state : State} {w : World}
  {fault : Fault}

/-- **Reaches its target** — the command comes as far as opening its target: nothing else has
failed before, and it does not end before. -/
def ReachesTarget (host : Host) (state : State) (t : Tree) (command : Text) : Prop :=
  match Verb.ofCommand command with
  | .exit => False
  | .printDirectory | .echo | .changeDirectory _ => True
  | .describe name => ∃ text, described host state t name = .ok text
  | .program => ∃ name arguments executable,
      Program.Calls host state t command name arguments executable

/-- **Target breaks** — the one target of a command line breaks when it is opened. -/
def TargetBreaks (host : Host) (line : CommandLine) (directory : Text) (w : World)
    (fault : Fault) : Prop :=
  ∃ path, line.target? = some path ∧ Breaks (Target.openWriter host path directory) w fault

theorem breaks_deliver_iff (text : Text) :
    Breaks (deliver host line state text) w fault ↔
      TargetBreaks host line state.directory w fault := by
  obtain ⟨command, output, error⟩ := line
  refine Target.breaks_iff_of_optional (fun hnone => ?_) fun path hpath => ?_
  · obtain ⟨rfl, rfl⟩ := Option.or_eq_none_iff.mp hnone
    exact Action.sturdy_printLine text
  · rcases output with _ | target
    · -- the error target is touched, and then the text is printed
      obtain rfl : error = some path := hpath
      have htouch : Breaks (deliver host ⟨command, none, some path⟩ state text) w fault ↔
          Breaks (Target.touch host path state.directory) w fault :=
        breaks_bind_iff fun _ => Action.sturdy_printLine text
      exact htouch.trans Target.breaks_touch_iff
    · obtain rfl : target = path := Option.some.inj hpath
      exact Target.breaks_fill_iff

theorem breaks_touchTargets_iff (hsingle : line.IsSingle) :
    Breaks (touchTargets host line state) w fault ↔
      TargetBreaks host line state.directory w fault := by
  obtain ⟨command, output, error⟩ := line
  refine Target.breaks_iff_of_optional (fun hnone => ?_) fun path hpath => ?_
  · obtain ⟨rfl, rfl⟩ := Option.or_eq_none_iff.mp hnone
    exact sturdy_pure ()
  · rcases output with _ | target
    · obtain rfl : error = some path := hpath
      exact Target.breaks_touch_iff
    · obtain rfl : target = path := Option.some.inj hpath
      obtain rfl : error = none := hsingle.resolve_left (by simp)
      have htouch : Breaks (touchTargets host ⟨command, some target, none⟩ state) w fault ↔
          Breaks (Target.touch host target state.directory) w fault :=
        breaks_bind_iff fun _ => sturdy_pure ()
      exact htouch.trans Target.breaks_touch_iff

/-- Changing the directory tells the user what went wrong. -/
theorem sturdy_changeDirectory (path : Text) : Sturdy (changeDirectory host path state) := by
  intro w fault
  obtain ⟨next, events, hchange, -⟩ := changeDirectory_cases host path state w
  exact not_breaks_of_ok hchange

/-- **A command** with one target at most breaks exactly if it comes as far as its target and
the target breaks, or if it calls a program whose launch breaks. -/
theorem breaks_dispatch_iff (hsingle : line.IsSingle) :
    Breaks (dispatch host launcher line state) w fault ↔
      (ReachesTarget host state w.tree line.command ∧
        TargetBreaks host line state.directory w fault) ∨
      ∃ name arguments executable,
        Program.Calls host state w.tree line.command name arguments executable ∧
        Program.LaunchBreaks host launcher line state (name :: arguments) executable w fault := by
  have hbuiltin : Verb.ofCommand line.command ≠ .program → ¬ ∃ name arguments executable,
      Program.Calls host state w.tree line.command name arguments executable ∧
      Program.LaunchBreaks host launcher line state (name :: arguments) executable w fault := by
    rintro hverb ⟨name, arguments, executable, hcalls, -⟩
    exact hverb hcalls.verb
  unfold dispatch ReachesTarget
  rcases hverb : Verb.ofCommand line.command with _ | _ | _ | name | path | _
  · rw [or_iff_left (hbuiltin (by simp [hverb]))]
    refine iff_of_false ?_ fun h => h.1
    exact (Action.sturdy_log _ _).bind (fun _ => (Action.sturdy_emit _).bind fun _ =>
      sturdy_pure state) w fault
  · rw [or_iff_left (hbuiltin (by simp [hverb])), true_and]
    exact (breaks_bind_iff fun _ => sturdy_pure state).trans (breaks_deliver_iff _)
  · rw [or_iff_left (hbuiltin (by simp [hverb])), true_and]
    exact (breaks_bind_iff fun _ => sturdy_pure state).trans (breaks_deliver_iff _)
  · -- the description comes first, and if it fails there is nothing to deliver
    rw [or_iff_left (hbuiltin (by simp [hverb]))]
    obtain ⟨events, -, hdescription⟩ := perform_description host state name w
    rcases hdescribed : described host state w.tree name with failure | text <;>
      rw [hdescribed] at hdescription
    · rw [breaks_bind_of_error hdescription]
      refine iff_of_false (not_breaks_of_system hdescription) ?_
      rintro ⟨⟨text, htext⟩, -⟩
      exact absurd (hdescribed.symm.trans htext) (by simp)
    · have huniform := (Action.compositional_uniform launcher).deliver host line state text
      rw [breaks_bind_of_ok hdescription, breaks_bind_iff fun _ => sturdy_pure state,
        huniform.breaks_iff (World.tree_after w w.tree events), breaks_deliver_iff]
      exact ⟨fun h => ⟨⟨text, hdescribed⟩, h⟩, And.right⟩
  · rw [or_iff_left (hbuiltin (by simp [hverb])), true_and]
    exact (breaks_bind_iff fun _ => sturdy_changeDirectory path).trans
      (breaks_touchTargets_iff hsingle)
  · -- a program that is found opens its sinks and is launched
    rw [breaks_bind_iff fun _ => sturdy_pure state, Program.breaks_run_iff hverb]
    simp only [Program.breaks_runFound_iff, Program.breaks_openSinks_iff hsingle]
    constructor
    · rintro ⟨name, arguments, executable, hcalls, htarget | hlaunch⟩
      · exact .inl ⟨⟨name, arguments, executable, hcalls⟩, htarget⟩
      · exact .inr ⟨name, arguments, executable, hcalls, hlaunch⟩
    · rintro (⟨⟨name, arguments, executable, hcalls⟩, htarget⟩ |
        ⟨name, arguments, executable, hcalls, hlaunch⟩)
      · exact ⟨name, arguments, executable, hcalls, .inl htarget⟩
      · exact ⟨name, arguments, executable, hcalls, .inr hlaunch⟩

end Dispatch

end Builtin

/-! ## Lines -/

/-- **Tame starts** — a launch with the given variables succeeds or fails with a system error, as
long as its arguments hold no NUL characters. -/
def Launcher.StartsTame (launcher : Launcher) (environment : Environment) : Prop :=
  ∀ t busy launch, launch.environment = environment →
    (∀ argument ∈ launch.arguments, '\x00' ∉ argument) → Tame (launcher.start t busy launch)

theorem Launcher.startsTame_ofTable (table : Table) (turns : Launch → List Channel)
    (environment : Environment) : (ofTable table turns).StartsTame environment := by
  intro t busy launch _ _ fault h
  rcases hbehaviour : table.behaviour launch.executable with failure | child
  · rw [start_ofTable_of_error turns t busy hbehaviour] at h
    rw [← Except.error.inj h]
    rfl
  · rw [start_ofTable_of_ok turns t busy hbehaviour] at h
    exact absurd h (by simp)

/-- The arguments of a launch for a line hold no NUL characters if the line holds none. -/
theorem Program.Calls.nul_not_mem {host : Host} {state : State} {t : Tree} {line name : Text}
    {arguments : List Text} {executable : Text}
    (h : Calls host state t (CommandLine.ofLine line).command name arguments executable)
    (hline : '\x00' ∉ line) : ∀ argument ∈ name :: arguments, '\x00' ∉ argument := by
  intro argument hargument hmem
  rw [← h.words] at hargument
  rcases mem_of_mem_words hargument hmem with hcommand | hbackslash
  · exact hline (CommandLine.mem_of_mem_command hcommand)
  · exact absurd hbackslash (by decide)

namespace Session

section Line

variable {host : Host} {launcher : Launcher} {line : Text} {state : State} {w : World}
  {fault : Fault}

/-- A line breaks exactly if its command does: splitting is sturdy, and what is reported are
system errors alone. -/
theorem breaks_runLine_iff_dispatch :
    Breaks (runLine host launcher line state) w fault ↔
      Breaks (Builtin.dispatch host launcher (.ofLine line) state) w fault := by
  have huniform := (Action.compositional_uniform launcher).dispatch host (.ofLine line) state
  obtain ⟨events, -, hsplit⟩ := perform_split line w
  rw [runLine, breaks_bind_of_ok hsplit]
  split
  · -- without a command there is nothing that could break
    rename_i hcommand
    refine iff_of_false (sturdy_pure state _ fault) ?_
    rw [Builtin.breaks_dispatch_iff (CommandLine.isSingle_ofLine line)]
    have hcalls : ∀ name arguments executable, ¬ Program.Calls host state w.tree
        (CommandLine.ofLine line).command name arguments executable := by
      intro name arguments executable hcalls
      have hwords := hcalls.words
      rw [hcommand, words_nil] at hwords
      exact absurd hwords (by simp)
    rintro (⟨hreaches, -⟩ | ⟨name, arguments, executable, hcall, -⟩)
    · have hverb : Verb.ofCommand (CommandLine.ofLine line).command = .program := by
        rw [hcommand]
        rfl
      rw [Builtin.ReachesTarget, hverb] at hreaches
      obtain ⟨name, arguments, executable, hcall⟩ := hreaches
      exact hcalls name arguments executable hcall
    · exact hcalls name arguments executable hcall
  · rw [breaks_tryCatch_iff, huniform.breaks_iff (World.tree_after w w.tree events)]
    · intro failure
      exact (Action.sturdy_log _ _).bind fun _ => (Action.sturdy_printLine _).bind fun _ =>
        sturdy_pure state
    · intro fault hfault
      cases fault <;> first | rfl | exact absurd hfault (by simp)

/-- **A line** breaks exactly if its command comes as far as its target and the target breaks,
or calls a program whose launch breaks. -/
theorem breaks_runLine_iff :
    Breaks (runLine host launcher line state) w fault ↔
      (Builtin.ReachesTarget host state w.tree (CommandLine.ofLine line).command ∧
        Builtin.TargetBreaks host (.ofLine line) state.directory w fault) ∨
      ∃ name arguments executable,
        Program.Calls host state w.tree (CommandLine.ofLine line).command name arguments
          executable ∧
        Program.LaunchBreaks host launcher (.ofLine line) state (name :: arguments) executable w
          fault :=
  breaks_runLine_iff_dispatch.trans
    (Builtin.breaks_dispatch_iff (CommandLine.isSingle_ofLine line))

/-- A line comes to a state, or it breaks. -/
theorem exists_state_or_breaks (host : Host) (launcher : Launcher) (line : Text) (state : State)
    (w : World) : (∃ next, ((runLine host launcher line state).perform w).1 = .ok next) ∨
      ∃ fault, Breaks (runLine host launcher line state) w fault := by
  obtain ⟨events, -, hline⟩ := perform_runLine host launcher line state w
  split at hline
  · exact .inl ⟨state, congrArg Prod.fst hline⟩
  · split at hline
    · exact .inl ⟨_, congrArg Prod.fst hline⟩
    · -- a fault is reported if it is a system error, and passed on otherwise
      rename_i fault w' _
      rcases hfault : fault.isSystem with _ | _
      · rw [perform_recover_of_not_system hfault] at hline
        exact .inr ⟨fault, congrArg Prod.fst hline, hfault⟩
      · obtain ⟨error, rfl⟩ := Fault.exists_system hfault
        rw [perform_recover_system] at hline
        exact .inl ⟨state, congrArg Prod.fst hline⟩

/-- **Asks too deep** — the line comes as far as its target, and more of the directories
right above the target are missing than can be made at once. -/
def AsksTooDeep (host : Host) (state : State) (t : Tree) (line : Text) : Prop :=
  Builtin.ReachesTarget host state t (CommandLine.ofLine line).command ∧
    ∃ path, (CommandLine.ofLine line).target? = some path ∧
      Target.IsTooDeep host t path state.directory

/-- Without NUL characters, and where launches fail with system errors only, a line breaks
exactly if it asks too deep. -/
theorem breaks_runLine_iff_asksTooDeep (hstarts : launcher.StartsTame state.environment)
    (hline : '\x00' ∉ line)
    (hdirectory : '\x00' ∉ state.directory) :
    Breaks (runLine host launcher line state) w fault ↔
      fault = .tooDeep ∧ AsksTooDeep host state w.tree line := by
  have hlaunch : ¬ ∃ name arguments executable,
      Program.Calls host state w.tree (CommandLine.ofLine line).command name arguments executable ∧
      Program.LaunchBreaks host launcher (.ofLine line) state (name :: arguments) executable w
        fault := by
    rintro ⟨name, arguments, executable, hcalls, output, error, w', -, hstart, hsystem⟩
    rw [hstarts _ _ _ rfl (hcalls.nul_not_mem hline) fault hstart] at hsystem
    exact absurd hsystem (by simp)
  have htarget : Builtin.TargetBreaks host (.ofLine line) state.directory w fault ↔
      fault = .tooDeep ∧ ∃ path, (CommandLine.ofLine line).target? = some path ∧
        Target.IsTooDeep host w.tree path state.directory := by
    constructor
    · rintro ⟨path, hpath, hbreaks⟩
      have hnul : '\x00' ∉ path := fun hmem => hline (CommandLine.mem_of_mem_target hpath hmem)
      obtain ⟨hfault, hdeep⟩ := (Target.breaks_openWriter_iff hnul hdirectory).mp hbreaks
      exact ⟨hfault, path, hpath, hdeep⟩
    · rintro ⟨hfault, path, hpath, hdeep⟩
      have hnul : '\x00' ∉ path := fun hmem => hline (CommandLine.mem_of_mem_target hpath hmem)
      exact ⟨path, hpath, (Target.breaks_openWriter_iff hnul hdirectory).mpr ⟨hfault, hdeep⟩⟩
  rw [breaks_runLine_iff, or_iff_left hlaunch, htarget, AsksTooDeep]
  exact and_left_comm

end Line

end Session
end LineShell
