/-
# LineShell.Proofs.Session.Arguments -- every list of arguments can be passed to a program

A line can hand any arguments to a program that the search path holds, whatever characters
they are made of: they are written with each character protected. No stage of the line's way
takes anything from them. Splitting finds no redirect clause, no builtin is recognised, also
if the first argument is the name of one, and the scanner reads the arguments back. The
program is then launched once, with these arguments (`arguments_transmitted`).

A run without targets is told by what comes of the launch (`run_of_found`): it shows one
launch, and the tree is the one that the program leaves. A program of a table leaves the tree
as it was, and fails in no way that ends the line.
-/

import LineShell.Launcher.Table
import LineShell.Proofs.Session.Redirected
import LineShell.Proofs.Words.Protected

namespace LineShell

/-! ## Launches among events -/

theorem Quiet.launched? {events : List Event} (h : Quiet events) :
    events.filterMap Event.launched? = [] :=
  h.filterMap_eq_nil fun _ => rfl

theorem Preparing.launched? {events : List Event} (h : Preparing events) :
    events.filterMap Event.launched? = [] := by
  rw [List.filterMap_eq_nil_iff]
  intro event he
  obtain ⟨m, rfl⟩ | ⟨handle, rfl⟩ := h event he <;> rfl

theorem Concluding.launched? {events : List Event} (h : Concluding events) :
    events.filterMap Event.launched? = [] := by
  rw [List.filterMap_eq_nil_iff]
  intro event he
  obtain ⟨m, rfl⟩ | ⟨handle, rfl⟩ := h event he <;> rfl

/-- Draining a program launches none. -/
theorem Draining.launched?_complete (d : Draining) (turns : List Channel) :
    (d.complete turns).2.filterMap Event.launched? = [] := by
  rw [List.filterMap_eq_nil_iff]
  intro event he
  have hstream := isFromStream_of_mem_run he
  cases event <;> simp_all [Event.isFromStream, Event.launched?]

/-! ## A run without targets -/

/-- The tree that a launch leaves behind; one that fails leaves it as it was. -/
def Launcher.treeAfter (launcher : Launcher) (t : Tree) (launch : Launch) : Tree :=
  match launcher.start t [] launch with
  | .error _ => t
  | .ok (_, t') => t'

/-- What a launch and the program that it starts end with. -/
def Launcher.outcome (launcher : Launcher) (t : Tree) (launch : Launch) : Except Fault Int :=
  match launcher.start t [] launch with
  | .error fault => .error fault
  | .ok (child, _) => child.outcome

section Run

variable {host : Host} (launcher : Launcher) {state : State} {name executable command : Text}
  {arguments : List Text} {w : World}

/-- A program that is found is launched once, and what it leaves is what the launch comes
to. -/
theorem Program.run_of_found (hwords : words command = name :: arguments)
    (hfound : Search.program w.tree host.directory (Search.pathOf host state.environment) name =
      .ok (some executable)) :
    let launch := launchOf state (name :: arguments) executable
    ∃ events, (run host launcher (.plain command) state).perform w =
        ((launcher.outcome w.tree launch).map some, w.after (launcher.treeAfter w.tree launch) events) ∧
      events.filterMap Event.launched? = [launch] := by
  intro launch
  have hplain : words (CommandLine.plain command).command = name :: arguments := hwords
  have hfind := perform_find host state.environment name w
  rw [hfound] at hfind
  have hconsole : ∀ w, (Sink.ofTarget host state.directory none).perform w = (.ok .console, w) :=
    Sink.perform_ofTarget_none host state.directory
  have hone : Event.launched? (.launched launch) = some launch := rfl
  rcases hstart : launcher.start w.tree [] launch with fault | ⟨child, t⟩
  · obtain ⟨before, after, hbefore, hafter, hrun⟩ :=
      perform_run_unlaunched hplain hfind (hconsole _) (hconsole _) rfl rfl hstart
    refine ⟨before ++ .launched launch :: after, ?_, ?_⟩
    · rw [Launcher.outcome, Launcher.treeAfter, hstart]
      exact hrun
    · rw [List.filterMap_append, List.filterMap_cons, hone, hbefore.launched?, hafter.launched?]
      rfl
  · obtain ⟨before, after, hbefore, hafter, -, hrun⟩ :=
      perform_run_started hplain hfind (hconsole _) (hconsole _) rfl rfl hstart
    let drained := (Draining.start child .console .console).complete (launcher.turns launch)
    refine ⟨before ++ .launched launch :: (drained.2 ++ .reaped :: after), ?_, ?_⟩
    · rw [Launcher.outcome, Launcher.treeAfter, hstart]
      exact hrun
    · simp only [List.filterMap_append, List.filterMap_cons, hone, hbefore.launched?,
        hafter.launched?, drained, Draining.launched?_complete]
      rfl

/-- A command that is left to the programs forgets the exit status. -/
theorem Builtin.dispatch_of_found (hverb : Verb.ofCommand command = .program)
    (hwords : words command = name :: arguments)
    (hfound : Search.program w.tree host.directory (Search.pathOf host state.environment) name =
      .ok (some executable)) :
    let launch := Program.launchOf state (name :: arguments) executable
    ∃ events, (dispatch host launcher (.plain command) state).perform w =
        ((launcher.outcome w.tree launch).map fun _ => state,
          w.after (launcher.treeAfter w.tree launch) events) ∧
      events.filterMap Event.launched? = [launch] := by
  intro launch
  obtain ⟨events, hrun, hlaunched⟩ := Program.run_of_found launcher hwords hfound
  refine ⟨events, ?_, hlaunched⟩
  rw [dispatch, CommandLine.command_plain, hverb]
  simp only [Action.perform_bind, hrun]
  cases launcher.outcome w.tree launch <;> rfl

/-- A line that is nothing but a command for a program runs that program. It ends in the state
as it was, unless the launch ends in a fault that is no system error. -/
theorem Session.runLine_of_found {line : Text} (hline : CommandLine.ofLine line = .plain command)
    (hverb : Verb.ofCommand command = .program) (hwords : words command = name :: arguments)
    (hfound : Search.program w.tree host.directory (Search.pathOf host state.environment) name =
      .ok (some executable)) :
    let launch := Program.launchOf state (name :: arguments) executable
    ∃ result events, (runLine host launcher line state).perform w =
        (result, w.after (launcher.treeAfter w.tree launch) events) ∧
      events.filterMap Event.launched? = [launch] ∧
      (result = .ok state ∨ ∃ fault, result = .error fault ∧
        launcher.outcome w.tree launch = .error fault ∧ fault.isSystem = false) := by
  intro launch
  have hcommand : ¬ (CommandLine.plain command).command = [] := by
    rintro (rfl : command = [])
    exact absurd hwords (by simp)
  obtain ⟨notes, hnotes, hperform⟩ := perform_runLine host launcher line state w
  obtain ⟨events, hdispatch, hlaunched⟩ :=
    Builtin.dispatch_of_found launcher (w := w.after w.tree notes) hverb hwords hfound
  rw [hline, if_neg hcommand, hdispatch, World.tree_after, World.after_after] at hperform
  have hone : (notes ++ events).filterMap Event.launched? = [launch] := by
    rw [List.filterMap_append, hnotes.launched?, hlaunched]
    rfl
  rcases houtcome : launcher.outcome w.tree launch with fault | status
  · rw [houtcome] at hperform
    -- only a system error is reported, and reporting launches nothing
    rcases hfault : fault.isSystem with _ | _
    · have hpassed := perform_recover_of_not_system hfault (.plain command) state
        (w.after (launcher.treeAfter w.tree launch) (notes ++ events))
      exact ⟨_, _, hperform.trans hpassed, hone, .inr ⟨fault, rfl, rfl, hfault⟩⟩
    · obtain ⟨error, rfl⟩ := Fault.exists_system hfault
      have hreported := perform_recover_system (.plain command) state error
        (w.after (launcher.treeAfter w.tree launch) (notes ++ events))
      rw [World.after_after] at hreported
      refine ⟨_, _, hperform.trans hreported, ?_, .inl rfl⟩
      rw [List.filterMap_append, hone, List.filterMap_append, (quiet_eventsAt _ _).launched?]
      rfl
  · rw [houtcome] at hperform
    exact ⟨_, _, hperform, hone, .inl rfl⟩

end Run

/-- A program of a table leaves the tree as it was, and ends in no other fault than a system
error. -/
theorem Launcher.ofTable_outcome (table : Table) (turns : Launch → List Channel) (t : Tree)
    (launch : Launch) :
    (ofTable table turns).treeAfter t launch = t ∧
      ∀ fault, (ofTable table turns).outcome t launch = .error fault → fault.isSystem = true := by
  unfold treeAfter outcome
  rcases hbehaviour : table.behaviour launch.executable with e | child
  · rw [start_ofTable_of_error turns t [] hbehaviour]
    refine ⟨rfl, fun fault h => ?_⟩
    rw [← Except.error.inj h]
    rfl
  · rw [start_ofTable_of_ok turns t [] hbehaviour]
    refine ⟨rfl, fun fault h => ?_⟩
    obtain ⟨e, rfl⟩ := Child.exists_system_of_outcome_eq_error h
    rfl

/-! ## All arguments -/

namespace Session

/-- **Arguments** — the protected line of any arguments, of which none is empty, has no target,
and its words are the arguments. Where the first one names a program, running the line
launches that program once, with the arguments as they are, and the state is the one before
the line if there is one behind it. With a table of programs there always is, and the tree
stays as it was, too. -/
theorem arguments_transmitted {arguments : List Text} (hne : arguments ≠ [])
    (h : ∀ argument ∈ arguments, argument ≠ []) :
    let line := protectedLine arguments
    let parsed := CommandLine.ofLine line
    parsed.isRedirected = false ∧ words parsed.command = arguments ∧
    ∀ (host : Host) (state : State) (w : World) (executable : Text),
      Search.program w.tree host.directory (Search.pathOf host state.environment)
        (arguments.head hne) = .ok (some executable) →
      (∀ launcher, ∃ result t events,
        (runLine host launcher line state).perform w = (result, w.after t events) ∧
        events.filterMap Event.launched? = [Program.launchOf state arguments executable] ∧
        ∀ next, result = .ok next → next = state) ∧
      ∀ table turns, ∃ events,
        (runLine host (.ofTable table turns) line state).perform w =
          (.ok state, w.after w.tree events) ∧
        events.filterMap Event.launched? = [Program.launchOf state arguments executable] := by
  intro line parsed
  have hparsed : parsed = .plain line := ofLine_protectedLine h
  have hwords : words line = arguments := words_protectedLine h
  have hverb : Verb.ofCommand line = .program := by
    obtain ⟨mark, rest, hline, hmark⟩ := exists_protectedLine_eq_cons hne h
    refine Verb.ofCommand_of_first fun c others hc hmem => ?_
    obtain rfl : mark = c := (List.cons.inj (hline.symm.trans hc)).1
    rcases hmark with rfl | rfl <;> exact absurd hmem (by decide)
  refine ⟨by rw [hparsed]; rfl, by rw [hparsed]; exact hwords, ?_⟩
  intro host state w executable hfound
  obtain ⟨name, others, rfl⟩ := List.exists_cons_of_ne_nil hne
  have hrun := fun launcher => runLine_of_found launcher hparsed hverb hwords hfound
  constructor
  · intro launcher
    obtain ⟨result, events, hperform, hlaunched, hresult⟩ := hrun launcher
    refine ⟨result, _, events, hperform, hlaunched, fun next hnext => ?_⟩
    rcases hresult with rfl | ⟨fault, rfl, -⟩
    · exact (Except.ok.inj hnext).symm
    · exact absurd hnext (by simp)
  · intro table turns
    obtain ⟨result, events, hperform, hlaunched, hresult⟩ := hrun (.ofTable table turns)
    obtain ⟨htree, hsystem⟩ := Launcher.ofTable_outcome table turns w.tree
      (Program.launchOf state (name :: others) executable)
    rw [htree] at hperform
    rcases hresult with rfl | ⟨fault, -, houtcome, hfault⟩
    · exact ⟨events, hperform, hlaunched⟩
    · rw [hsystem fault houtcome] at hfault
      exact absurd hfault (by simp)

/-- A program with the name of a builtin gets an operator between spaces, a quotation mark
and a line feed. -/
theorem arguments_transmitted_builtin_name :
    let host : Host := ⟨[], [], none, 990⟩
    let state : State := ⟨"/", [("PATH", "/bin")]⟩
    let w : World := ⟨Tree.empty.put ["cd", "bin"] (.file [] true), .debug, []⟩
    let arguments : List Text := ["cd", "a > b", "\x27\\", " \n"]
    (∀ argument ∈ arguments, argument ≠ []) ∧
    ∃ events, (runLine host (.ofTable [] fun _ => []) (protectedLine arguments) state).perform w =
        (.ok state, w.after w.tree events) ∧
      events.filterMap Event.launched? = [⟨arguments, "/bin/cd", "/bin", state.environment⟩] := by
  intro host state w arguments
  have hne : arguments ≠ [] := List.cons_ne_nil _ _
  have h : ∀ argument ∈ arguments, argument ≠ [] := by decide
  have hfound : Search.program w.tree host.directory (Search.pathOf host state.environment) "cd" =
      .ok (some "/bin/cd") := by
    decide +kernel
  exact ⟨h, ((arguments_transmitted hne h).2.2 host state w "/bin/cd" hfound).2 _ _⟩

end Session

end LineShell
