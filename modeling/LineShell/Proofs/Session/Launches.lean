/-
# LineShell.Proofs.Session.Launches -- when a command launches a program

A command is recognised as a builtin by its text, before it is split into words, and a
program is named by the first of its words. A command that has none of the forms of the
builtins looks that program up, then opens the targets, and only then launches it. So it is
told in advance whether there is a launch, and which one (`Launches`): a command launches
exactly that program, once, and nothing else does (`dispatch_launches`).

What comes before the launch decides what a command that launches nothing leaves behind. If
it names no program, its targets are left alone. If they do not open, the program has been
looked up and is not launched.

`Launching` gives the launches of an action. Everything that a command does beside the launch
is discreet, apart from the line that a builtin prints and the end of the shell, and neither
launches a program.
-/

import LineShell.Proofs.Session.Arguments
import LineShell.Proofs.Session.Contained
import LineShell.Proofs.Tree.Absolute
import Mathlib.Data.List.Infix

namespace LineShell

/-! ## The forms of the builtins -/

/-- **Builtin form** — the text of a command that the shell carries out itself. -/
def Verb.IsBuiltinForm (command : Text) : Prop :=
  command ∈ (["exit 0", "pwd", "echo"] : List Text) ∨
    ∃ start ∈ (["echo ", "type ", "cd "] : List Text), start <+: command

/-- A text that is not taken apart at a prefix does not begin with it. -/
theorem Text.not_prefix_of_isPrefixOf?_eq_none {start t : Text}
    (h : start.isPrefixOf? t = none) : ¬ start <+: t := by
  rintro ⟨rest, hrest⟩
  have hsome := List.isPrefixOf?_eq_some_iff_append_eq.mpr hrest
  exact absurd (h.symm.trans hsome) (by simp)

/-- A command is left to the programs exactly if it has none of the forms of the builtins. -/
theorem Verb.ofCommand_eq_program_iff {command : Text} :
    ofCommand command = .program ↔ ¬ IsBuiltinForm command := by
  unfold ofCommand IsBuiltinForm
  -- the forms are tried in turn, each case knowing that those before did not apply
  split
  · rename_i hexit
    simp [hexit]
  · rename_i hexit
    split
    · rename_i hpwd
      simp [hpwd]
    · rename_i hpwd
      split
      · rename_i hecho
        rcases hecho with hecho | hecho
        · simp [hecho]
        · have hstart := List.isPrefixOf_iff_prefix.mp hecho
          exact iff_of_false (by simp) fun hnone => hnone (.inr ⟨_, by simp, hstart⟩)
      · rename_i hecho
        rw [not_or] at hecho
        split
        · rename_i hname
          have hstart := List.isPrefixOf?_eq_some_iff_append_eq.mp hname
          exact iff_of_false (by simp) fun hnone => hnone (.inr ⟨_, by simp, _, hstart⟩)
        · rename_i htype
          split
          · rename_i hpath
            have hstart := List.isPrefixOf?_eq_some_iff_append_eq.mp hpath
            exact iff_of_false (by simp) fun hnone => hnone (.inr ⟨_, by simp, _, hstart⟩)
          · rename_i hcd
            refine iff_of_true rfl ?_
            rintro (hmem | ⟨start, hmem, hstart⟩)
            · simp only [List.mem_cons, List.not_mem_nil, or_false] at hmem
              rcases hmem with hmem | hmem | hmem
              · exact hexit hmem
              · exact hpwd hmem
              · exact hecho.1 hmem
            · simp only [List.mem_cons, List.not_mem_nil, or_false] at hmem
              rcases hmem with rfl | rfl | rfl
              · exact hecho.2 (List.isPrefixOf_iff_prefix.mpr hstart)
              · exact Text.not_prefix_of_isPrefixOf?_eq_none htype hstart
              · exact Text.not_prefix_of_isPrefixOf?_eq_none hcd hstart

/-! ## The launches of an action -/

namespace Action

variable {α β : Type} {x : Action α} {f : α → Action β} {w w' : World}

/-- **Launching** — the programs that the action launches are the given ones, whatever its
result is. -/
def Launching (x : Action α) (w : World) (launches : List Launch) : Prop :=
  x.Tells w fun told => told.filterMap Event.launched? = launches

/-- A launch is notable, so that no launch is missed among all that happens. -/
theorem filterMap_launched?_notable (events : List Event) :
    (notable events).filterMap Event.launched? = events.filterMap Event.launched? := by
  refine filterMap_notable ?_ events
  rintro ⟨⟩ <;> simp [Event.isNotable, Event.launched?]

/-- The launches of an action are all those among its events. -/
theorem Launching.exists_events {launches : List Launch} (h : x.Launching w launches) :
    ∃ result t events, x.perform w = (result, w.after t events) ∧
      events.filterMap Event.launched? = launches := by
  obtain ⟨result, t, events, hx, htold⟩ := h
  rw [filterMap_launched?_notable] at htold
  exact ⟨result, t, events, hx, htold⟩

/-- What comes before, is discreet and comes to a result adds nothing. -/
theorem Discreet.behind_of_ok {P : List Event → Prop} {a : α} (hx : x.Discreet)
    (h : x.perform w = (.ok a, w')) (hf : (f a).Tells w' P) : (x >>= f).Tells w P := by
  obtain ⟨t, events, rfl, hnil⟩ := (hx w).of_perform h
  obtain ⟨result, t', events', hfa, hP⟩ := hf
  refine ⟨result, t', events ++ events', ?_, ?_⟩
  · rw [perform_bind, h]
    exact hfa.trans (by rw [World.after_after])
  · rwa [notable_append, hnil, List.nil_append]

theorem Discreet.launching (h : x.Discreet) (w : World) : x.Launching w [] :=
  (h w).mono fun told htold => by rw [htold]; rfl

theorem launching_printLine (line : Text) (w : World) : (printLine line).Launching w [] :=
  ⟨.ok (), w.tree, [.printed line], perform_printLine line w, rfl⟩

theorem launching_exited (code : Int) (w : World) : (emit (.exited code)).Launching w [] :=
  ⟨.ok (), w.tree, [.exited code], perform_emit _ w, rfl⟩

end Action

open LineShell.Action

/-! ## Programs -/

namespace Program

variable {host : Host} (launcher : Launcher) {line : CommandLine} {state : State}
  {name executable : Text} {arguments : List Text} {w w' : World}

/-- Conducting a program is one launch, whether or not it succeeds. -/
theorem conduct_launching (launch : Launch) (output error : Sink) (w : World) :
    (conduct launcher launch output error).Launching w [launch] := by
  have hconduct := perform_conduct launcher launch output error w
  have hbefore : (notable ((launcher.announce launch).flatMap
      (Message.eventsAt w.limit))).filterMap Event.launched? = [] := by
    rw [filterMap_launched?_notable]
    exact (quiet_announcements launcher launch w.limit).launched?
  rcases hstart : launcher.start w.tree (output.place?.toList ++ error.place?.toList) launch with
    fault | ⟨child, t⟩
  · simp only [hstart] at hconduct
    refine ⟨_, _, _, hconduct, ?_⟩
    simp only [notable_append, List.filterMap_append, hbefore]
    rfl
  · simp only [hstart, perform_drain_eq, World.after_after] at hconduct
    refine ⟨_, _, _, hconduct, ?_⟩
    -- of draining nothing is notable but lines that are printed
    simp only [notable_append, Draining.notable_complete, List.filterMap_append, hbefore,
      launched?_map_printed]
    rfl

/-- The sinks that are opened were opened in turn. -/
theorem exists_of_openSinks {directory : Text} {sinks : Sink × Sink}
    (h : (openSinks host line directory).perform w = (.ok sinks, w')) :
    ∃ w₁, (Sink.ofTarget host directory line.output).perform w = (.ok sinks.1, w₁) ∧
      (Sink.ofTarget host directory line.error).perform w₁ = (.ok sinks.2, w') := by
  obtain ⟨output, w₁, houtput, hrest⟩ := perform_bind_eq_ok_iff.mp h
  obtain ⟨error, w₂, herror, hpure⟩ := perform_bind_eq_ok_iff.mp hrest
  obtain ⟨hsinks, rfl⟩ := Prod.mk.inj hpure
  obtain rfl := Except.ok.inj hsinks
  exact ⟨w₁, houtput, herror⟩

/-- A program that was found is launched once if its sinks open. -/
theorem runFound_launching_of_opened {sinks : Sink × Sink}
    (h : (openSinks host line state.directory).perform w = (.ok sinks, w')) :
    (runFound host launcher line state name arguments executable).Launching w
      [launchOf state (name :: arguments) executable] := by
  obtain ⟨w₁, houtput, herror⟩ := exists_of_openSinks h
  have hopened : (attempt (Sink.ofTarget host state.directory line.error)).perform w₁ =
      (.ok (.ok sinks.2), w') := by
    rw [perform_attempt, herror]
  refine (discreet_ofTarget _ _).behind_of_ok houtput ?_
  refine (discreet_ofTarget _ _).attempt.behind_of_ok hopened ?_
  exact Tells.bind (conduct_launching launcher _ _ _ _) fun ended =>
    discreet_afterwards name ended.1 ended.2.1 ended.2.2

/-- Sinks that do not open fail at the output or behind it. -/
theorem cases_of_openSinks {directory : Text} {fault : Fault}
    (h : (openSinks host line directory).perform w = (.error fault, w')) :
    (Sink.ofTarget host directory line.output).perform w = (.error fault, w') ∨
      ∃ output w₁, (Sink.ofTarget host directory line.output).perform w = (.ok output, w₁) ∧
        (Sink.ofTarget host directory line.error).perform w₁ = (.error fault, w') := by
  rcases perform_bind_eq_error_iff.mp h with houtput | ⟨output, w₁, houtput, hrest⟩
  · exact .inl houtput
  · rcases perform_bind_eq_error_iff.mp hrest with herror | ⟨error, w₂, -, hpure⟩
    · exact .inr ⟨output, w₁, houtput, herror⟩
    · exact absurd (congrArg Prod.fst hpure) (by simp)

/-- It is not launched if they do not. -/
theorem runFound_launching_of_not_opened {fault : Fault}
    (h : (openSinks host line state.directory).perform w = (.error fault, w')) :
    (runFound host launcher line state name arguments executable).Launching w [] := by
  rcases cases_of_openSinks h with houtput | ⟨output, w₁, houtput, herror⟩
  · refine (discreet_ofTarget _ _).behind rfl fun output w₁ hopened => ?_
    exact absurd (congrArg Prod.fst (houtput.symm.trans hopened)) (by simp)
  · have hfailed : (attempt (Sink.ofTarget host state.directory line.error)).perform w₁ =
        (.ok (.error fault), w') := by
      rw [perform_attempt, herror]
    refine (discreet_ofTarget _ _).behind_of_ok houtput ?_
    refine (discreet_ofTarget _ _).attempt.behind_of_ok hfailed ?_
    -- the output that did open is closed again
    exact ((discreet_close output _).bind fun _ => discreet_ofExcept _).launching w'

/-- A command whose first word names no program runs none. -/
theorem perform_run_of_unresolved (hwords : words line.command = name :: arguments)
    (hfound : Search.program w.tree host.directory (Search.pathOf host state.environment) name =
      .ok none) :
    ∃ notes, Quiet notes ∧ (run host launcher line state).perform w =
      (.ok none, w.after w.tree (notes ++ [.printed (line.command ++ ": command not found")])) := by
  have hfind := perform_find host state.environment name w
  rw [hfound] at hfind
  refine ⟨_, quiet_findNotes w.limit name (.ok none), ?_⟩
  rw [run, hwords]
  dsimp only
  rw [perform_bind, hfind]
  simp only [Except.mapError, perform_bind, perform_printLine, perform_pure, World.tree_after,
    World.after_after]

/-- A look-up that fails is all that becomes of a command. -/
theorem perform_run_of_failed {error : SystemError}
    (hwords : words line.command = name :: arguments)
    (hfound : Search.program w.tree host.directory (Search.pathOf host state.environment) name =
      .error error) :
    (run host launcher line state).perform w = (.error (.system error), w) := by
  have hfind := perform_find host state.environment name w
  rw [hfound] at hfind
  rw [run, hwords]
  dsimp only
  rw [perform_bind, hfind]
  simp only [Except.mapError, findNotes, World.after_self]

/-- A command whose first word names a program launches what the rest of the run launches. -/
theorem run_launching_of_found {launches : List Launch}
    (hwords : words line.command = name :: arguments)
    (hfound : Search.program w.tree host.directory (Search.pathOf host state.environment) name =
      .ok (some executable))
    (hrun : (runFound host launcher line state name arguments executable).Launching w launches) :
    (run host launcher line state).Launching w launches := by
  have hfind := perform_find host state.environment name w
  rw [hfound] at hfind
  -- the look-up leaves nothing but messages, which make no difference
  have huniform := (compositional_uniform launcher).runFound host line state name arguments
    executable
  obtain ⟨result, t, events, hperform, htold⟩ := hrun
  have hbehind := huniform.perform_eq hperform
    (World.tree_after w w.tree (findNotes w.limit name (.ok (some executable)))) rfl
  rw [run, hwords]
  refine (discreet_find _ _).behind_of_ok hfind ?_
  exact Tells.bind ⟨result, t, events, hbehind, htold⟩ fun _ => discreet_pure _

end Program

/-! ## Commands -/

namespace Builtin

variable {host : Host} {launcher : Launcher} {line : CommandLine} {state : State} {w : World}

/-- What a builtin prints is no launch. -/
theorem deliver_launching (text : Text) (w : World) :
    (deliver host line state text).Launching w [] := by
  obtain ⟨command, output, error⟩ := line
  cases output with
  | some path => exact (Target.discreet_fill host path _ _).launching w
  | none =>
    cases error with
    | some path =>
      have htouch := Target.discreet_touch host path state.directory
      exact htouch.behind rfl fun _ w' _ => launching_printLine text w'
    | none => exact launching_printLine text w

theorem changeDirectory_launching (path : Text) (w : World) :
    (changeDirectory host path state).Launching w [] := by
  refine discreet_tree.behind rfl fun t w₁ _ => ?_
  split
  · refine (discreet_debug _).behind rfl fun _ w₂ _ => ?_
    exact Tells.bind (launching_printLine _ w₂) fun _ => discreet_pure state
  · exact ((discreet_debug _).bind fun _ => discreet_pure _).launching w₁

/-- **A builtin** launches nothing. -/
theorem dispatch_launching_of_builtin (h : Verb.IsBuiltinForm line.command) (w : World) :
    (dispatch host launcher line state).Launching w [] := by
  have hpure : (pure state : Action State).Discreet := discreet_pure state
  unfold dispatch
  split
  · refine (discreet_debug _).behind rfl fun _ w₁ _ => ?_
    exact Tells.bind (launching_exited 0 w₁) fun _ => hpure
  · exact Tells.bind (deliver_launching _ w) fun _ => hpure
  · exact Tells.bind (deliver_launching _ w) fun _ => hpure
  · refine (discreet_description _).behind rfl fun text w₁ _ => ?_
    exact Tells.bind (deliver_launching text w₁) fun _ => hpure
  · exact discreet_touchTargets.behind rfl fun _ w₁ _ => changeDirectory_launching _ w₁
  · rename_i hverb
    exact absurd h (Verb.ofCommand_eq_program_iff.mp hverb)

/-- A command that is left to the programs forgets the exit status. -/
theorem perform_dispatch_of_program (h : ¬ Verb.IsBuiltinForm line.command)
    {result : Except Fault (Option Int)} {w' : World}
    (hrun : (Program.run host launcher line state).perform w = (result, w')) :
    (dispatch host launcher line state).perform w = (result.map fun _ => state, w') := by
  rw [dispatch, Verb.ofCommand_eq_program_iff.mpr h]
  simp only [perform_bind, hrun]
  cases result <;> rfl

/-! ## Which command launches which program -/

/-- **Launches** — the command launches a program in this way: it has none of the forms of the
builtins, its first word names the program on the search path, and its targets open. -/
structure Launches (host : Host) (line : CommandLine) (state : State) (w : World)
    (launch : Launch) : Prop where
  form : ¬ Verb.IsBuiltinForm line.command
  /-- The arguments are the words of the command. -/
  arguments : launch.arguments = words line.command
  /-- There is a first word, and the program is what it names. -/
  executable : ∃ name, launch.arguments.head? = some name ∧
    Search.program w.tree host.directory (Search.pathOf host state.environment) name =
      .ok (some launch.executable)
  /-- The targets open, the output before the errors. -/
  targets : ∃ sinks w', (Program.openSinks host line state.directory).perform w = (.ok sinks, w')
  directory : launch.directory = Path.directoryPart launch.executable
  environment : launch.environment = state.environment

namespace Launches

variable {launch : Launch} {name executable : Text} {arguments : List Text}

/-- The first word decides which program it is. -/
theorem found (h : Launches host line state w launch)
    (hwords : words line.command = name :: arguments) :
    Search.program w.tree host.directory (Search.pathOf host state.environment) name =
      .ok (some launch.executable) := by
  obtain ⟨first, hfirst, hfound⟩ := h.executable
  rw [h.arguments, hwords] at hfirst
  obtain rfl : name = first := Option.some.inj hfirst
  exact hfound

/-- A command with a program that was found and with targets that open launches it, and no
other. -/
theorem iff_of_found (hform : ¬ Verb.IsBuiltinForm line.command)
    (hwords : words line.command = name :: arguments)
    (hfound : Search.program w.tree host.directory (Search.pathOf host state.environment) name =
      .ok (some executable))
    (htargets : ∃ sinks w', (Program.openSinks host line state.directory).perform w =
      (.ok sinks, w')) :
    Launches host line state w launch ↔
      launch = Program.launchOf state (name :: arguments) executable := by
  constructor
  · intro h
    have hexecutable : executable = launch.executable :=
      Option.some.inj (Except.ok.inj (hfound.symm.trans (h.found hwords)))
    have harguments : launch.arguments = name :: arguments := h.arguments.trans hwords
    have hdirectory := h.directory
    have henvironment := h.environment
    rw [Program.launchOf, ← harguments, hexecutable, ← hdirectory, ← henvironment]
  · rintro rfl
    exact ⟨hform, hwords.symm, ⟨name, rfl, hfound⟩, htargets, rfl, rfl⟩

/-- A program is launched in a directory that is named by an absolute path. -/
theorem isAbsolute_directory (h : Launches host line state w launch) :
    Path.isAbsolute launch.directory = true := by
  obtain ⟨name, -, hfound⟩ := h.executable
  rw [h.directory]
  exact Path.isAbsolute_directoryPart (Search.isAbsolute_of_program_eq host.directory hfound)

end Launches

/-- **Unfound** — a command for a program that names none: it has no words, or looking up the
first one fails or finds nothing. -/
def Unfound (host : Host) (state : State) (t : Tree) (command : Text) : Prop :=
  ¬ Verb.IsBuiltinForm command ∧
    ∀ name arguments, words command = name :: arguments → ∀ executable,
      Search.program t host.directory (Search.pathOf host state.environment) name ≠
        .ok (some executable)

/-- **Unresolved** — a command for a program whose first word is looked up and not found. -/
def Unresolved (host : Host) (state : State) (t : Tree) (command : Text) : Prop :=
  ¬ Verb.IsBuiltinForm command ∧
    ∃ name arguments, words command = name :: arguments ∧
      Search.program t host.directory (Search.pathOf host state.environment) name = .ok none

/-- **Launches safely** — what happens in a command and the tree that it leaves, as far as
programs are concerned. -/
structure LaunchesSafely (host : Host) (line : CommandLine) (state : State) (w : World)
    (t : Tree) (events : List Event) : Prop where
  /-- One program is launched at most. -/
  length : (events.filterMap Event.launched?).length ≤ 1
  /-- It is launched if and only if the command asks for it, and as it asks for it. -/
  mem_iff : ∀ launch, launch ∈ events.filterMap Event.launched? ↔ Launches host line state w launch
  /-- It works in a directory that is named by an absolute path. -/
  directory : ∀ launch ∈ events.filterMap Event.launched?,
    launch.directory ≠ [] ∧ Path.isAbsolute launch.directory = true
  /-- The targets of a command that names no program are left alone, and so is the tree. -/
  unfound : Unfound host state w.tree line.command →
    t = w.tree ∧ events.filterMap Event.opened? = []
  /-- A command whose program is not found is told in one line, and nothing else is. -/
  unresolved : Unresolved host state w.tree line.command →
    events.filterMap Event.printed? = [line.command ++ ": command not found"] ∧
      events.filterMap Event.complained? = []

section Safely

variable {t : Tree} {events : List Event} {name executable : Text} {arguments : List Text}
  {error : SystemError}

/-- It is safe to launch nothing where no launch is asked for. -/
theorem LaunchesSafely.of_nil (hlaunched : events.filterMap Event.launched? = [])
    (hnone : ∀ launch, ¬ Launches host line state w launch)
    (hunfound : Unfound host state w.tree line.command →
      t = w.tree ∧ events.filterMap Event.opened? = [])
    (hunresolved : Unresolved host state w.tree line.command →
      events.filterMap Event.printed? = [line.command ++ ": command not found"] ∧
        events.filterMap Event.complained? = []) :
    LaunchesSafely host line state w t events where
  length := by rw [hlaunched]; exact Nat.zero_le 1
  mem_iff launch := by
    rw [hlaunched]
    exact iff_of_false List.not_mem_nil (hnone launch)
  directory launch hmem := by
    rw [hlaunched] at hmem
    exact absurd hmem List.not_mem_nil
  unfound := hunfound
  unresolved := hunresolved

/-- A builtin is safe, because it launches nothing. -/
theorem launchesSafely_of_builtin (h : Verb.IsBuiltinForm line.command) :
    ∃ result t events, (dispatch host launcher line state).perform w = (result, w.after t events) ∧
      LaunchesSafely host line state w t events := by
  have hlaunching : (dispatch host launcher line state).Launching w [] :=
    dispatch_launching_of_builtin h w
  obtain ⟨result, t, events, hdispatch, hnone⟩ := hlaunching.exists_events
  refine ⟨result, t, events, hdispatch, .of_nil hnone ?_ ?_ ?_⟩
  · exact fun launch hlaunch => hlaunch.form h
  · exact fun hunfound => absurd h hunfound.1
  · exact fun hunresolved => absurd h hunresolved.1

/-- Nothing is done for a command without words. -/
theorem launchesSafely_of_no_words (hform : ¬ Verb.IsBuiltinForm line.command)
    (hwords : words line.command = []) :
    ∃ result t events, (dispatch host launcher line state).perform w = (result, w.after t events) ∧
      LaunchesSafely host line state w t events := by
  have hrun : (Program.run host launcher line state).perform w = (.ok none, w.after w.tree []) := by
    rw [Program.run, hwords, World.after_self]
    rfl
  refine ⟨_, w.tree, [], perform_dispatch_of_program hform hrun, .of_nil rfl ?_ ?_ ?_⟩
  · intro launch hlaunch
    obtain ⟨first, hfirst, -⟩ := hlaunch.executable
    rw [hlaunch.arguments, hwords] at hfirst
    exact absurd hfirst (by simp)
  · exact fun _ => ⟨rfl, rfl⟩
  · rintro ⟨-, name, arguments, hwords', -⟩
    exact absurd (hwords.symm.trans hwords') (by simp)

/-- Nothing else is done if the look-up fails. -/
theorem launchesSafely_of_failed (hform : ¬ Verb.IsBuiltinForm line.command)
    (hwords : words line.command = name :: arguments)
    (hfound : Search.program w.tree host.directory (Search.pathOf host state.environment) name =
      .error error) :
    ∃ result t events, (dispatch host launcher line state).perform w = (result, w.after t events) ∧
      LaunchesSafely host line state w t events := by
  have hrun : (Program.run host launcher line state).perform w =
      (.error (.system error), w.after w.tree []) := by
    rw [World.after_self]
    exact Program.perform_run_of_failed launcher hwords hfound
  refine ⟨_, w.tree, [], perform_dispatch_of_program hform hrun, .of_nil rfl ?_ ?_ ?_⟩
  · exact fun launch hlaunch => absurd (hfound.symm.trans (hlaunch.found hwords)) (by simp)
  · exact fun _ => ⟨rfl, rfl⟩
  · rintro ⟨-, name', arguments', hwords', hnone⟩
    obtain ⟨rfl, rfl⟩ := List.cons.inj (hwords.symm.trans hwords')
    exact absurd (hfound.symm.trans hnone) (by simp)

/-- If the look-up finds nothing, a line is printed and nothing else is done. -/
theorem launchesSafely_of_unresolved (hform : ¬ Verb.IsBuiltinForm line.command)
    (hwords : words line.command = name :: arguments)
    (hfound : Search.program w.tree host.directory (Search.pathOf host state.environment) name =
      .ok none) :
    ∃ result t events, (dispatch host launcher line state).perform w = (result, w.after t events) ∧
      LaunchesSafely host line state w t events := by
  obtain ⟨notes, hnotes, hrun⟩ :=
    Program.perform_run_of_unresolved launcher hwords hfound
  refine ⟨_, w.tree, _, perform_dispatch_of_program hform hrun, .of_nil ?_ ?_ ?_ ?_⟩
  · rw [List.filterMap_append, hnotes.launched?]
    rfl
  · exact fun launch hlaunch => absurd (hfound.symm.trans (hlaunch.found hwords)) (by simp)
  · intro _
    rw [List.filterMap_append, hnotes.opened?]
    exact ⟨rfl, rfl⟩
  · intro _
    rw [List.filterMap_append, hnotes.printed?, List.filterMap_append, hnotes.complained?]
    exact ⟨rfl, rfl⟩

/-- With a program that was found it is left to the targets whether there is a launch. -/
theorem LaunchesSafely.of_found (hwords : words line.command = name :: arguments)
    (hfound : Search.program w.tree host.directory (Search.pathOf host state.environment) name =
      .ok (some executable))
    (hlength : (events.filterMap Event.launched?).length ≤ 1)
    (hlaunched : ∀ launch, launch ∈ events.filterMap Event.launched? ↔
      Launches host line state w launch) :
    LaunchesSafely host line state w t events where
  length := hlength
  mem_iff := hlaunched
  directory launch hmem := by
    have habsolute := ((hlaunched launch).mp hmem).isAbsolute_directory
    exact ⟨Path.ne_nil_of_isAbsolute habsolute, habsolute⟩
  unfound hunfound := absurd hfound (hunfound.2 name arguments hwords executable)
  unresolved hunresolved := by
    obtain ⟨-, name', arguments', hwords', hnone⟩ := hunresolved
    obtain ⟨rfl, rfl⟩ := List.cons.inj (hwords.symm.trans hwords')
    exact absurd (hfound.symm.trans hnone) (by simp)

/-- A program that was found is launched if the targets open, and not if they do not. -/
theorem launchesSafely_of_found (hform : ¬ Verb.IsBuiltinForm line.command)
    (hwords : words line.command = name :: arguments)
    (hfound : Search.program w.tree host.directory (Search.pathOf host state.environment) name =
      .ok (some executable)) :
    ∃ result t events, (dispatch host launcher line state).perform w = (result, w.after t events) ∧
      LaunchesSafely host line state w t events := by
  rcases hopen : (Program.openSinks host line state.directory).perform w with
    ⟨fault | sinks, w₁⟩
  · have hlaunching := Program.run_launching_of_found launcher hwords hfound
      (Program.runFound_launching_of_not_opened launcher hopen)
    obtain ⟨result, t, events, hrun, hnone⟩ := hlaunching.exists_events
    refine ⟨_, t, events, perform_dispatch_of_program hform hrun, .of_found hwords hfound ?_ ?_⟩
    · rw [hnone]
      exact Nat.zero_le 1
    · intro launch
      rw [hnone]
      refine iff_of_false List.not_mem_nil fun hlaunch => ?_
      obtain ⟨sinks, w', htargets⟩ := hlaunch.targets
      exact absurd (congrArg Prod.fst (hopen.symm.trans htargets)) (by simp)
  · have hlaunching := Program.run_launching_of_found launcher hwords hfound
      (Program.runFound_launching_of_opened launcher hopen)
    obtain ⟨result, t, events, hrun, hone⟩ := hlaunching.exists_events
    refine ⟨_, t, events, perform_dispatch_of_program hform hrun, .of_found hwords hfound ?_ ?_⟩
    · rw [hone]
      exact Nat.le_refl 1
    · intro launch
      rw [hone, List.mem_singleton]
      exact (Launches.iff_of_found hform hwords hfound ⟨sinks, w₁, hopen⟩).symm

end Safely

/-- **Launch safety** — whatever a command is and wherever it is carried out, it launches the
program that it asks for, once, in the directory of that program and with the session's
variables, and launches nothing if it asks for none. -/
theorem dispatch_launches (host : Host) (launcher : Launcher) (line : CommandLine)
    (state : State) (w : World) :
    ∃ result t events, (dispatch host launcher line state).perform w = (result, w.after t events) ∧
      LaunchesSafely host line state w t events := by
  by_cases hform : Verb.IsBuiltinForm line.command
  · exact launchesSafely_of_builtin hform
  rcases hwords : words line.command with _ | ⟨name, arguments⟩
  · exact launchesSafely_of_no_words hform hwords
  rcases hfound : Search.program w.tree host.directory (Search.pathOf host state.environment)
    name with error | _ | executable
  · exact launchesSafely_of_failed hform hwords hfound
  · exact launchesSafely_of_unresolved hform hwords hfound
  · exact launchesSafely_of_found hform hwords hfound

end Builtin
end LineShell
