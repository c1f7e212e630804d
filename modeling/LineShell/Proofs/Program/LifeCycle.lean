/-
# LineShell.Proofs.Program.LifeCycle -- from the launch of a program to its end

A program that was launched has both of its streams drained to their end or failure, then it
is waited for, once, and then its targets are closed. Each stream that fails stops it once.
The run fails exactly if a stream did; the failure of the output counts before that of the
errors, and without one the exit status is handed on (`Child.LivesThrough`). If the launch
itself fails there is nothing to stop or to wait for, and the targets are left empty
(`Launch.Fails`).

The main statement (`life_cycle`) is about every launcher. What a program does, how its start
fails and which turns its drains take are all chosen by the launcher, so nothing depends on
them. A run that was started is told in order by `perform_run_started`; what is left to do
here is to count.
-/

import LineShell.Proofs.Program.Delivery

namespace LineShell

/-! ## The ways a program ends -/

/-- **Life cycle** — what becomes of a program once it is launched, when its drains take the
given turns first. -/
structure Child.LivesThrough (child : Child) (turns : List Channel) (launch : Launch)
    (output error : Sink) (w : World) (ended : Except Fault (Option Int) × World) : Prop where
  /-- Nothing but messages and openings comes before the launch. The program is waited for
  behind all that its drains do, and after that its targets are closed. -/
  in_order : ∃ before after,
    ended.2.events = w.events ++ (before ++ .launched launch ::
      (((Draining.start child output error).complete turns).2 ++ .reaped :: after)) ∧
    Preparing before ∧ Concluding after ∧
    after.filterMap Event.closed? = error.handle?.toList ++ output.handle?.toList
  /-- The drains have come to the end of both streams, or to their failures. -/
  drained : let drained := ((Draining.start child output error).complete turns).1
    drained.output.stream.lines = [] ∧ drained.output.condition = child.output.condition ∧
    drained.error.stream.lines = [] ∧ drained.error.condition = child.error.condition
  /-- It is waited for once. -/
  reaped : ended.2.events.count .reaped = w.events.count .reaped + 1
  /-- It is stopped once for each stream that fails. -/
  killed : ended.2.events.count .killed = w.events.count .killed +
    (child.output.failure.toList.length + child.error.failure.toList.length)
  /-- The run fails exactly if a stream does. -/
  fails_iff : (∃ fault, ended.1 = .error fault) ↔
    child.output.failure ≠ none ∨ child.error.failure ≠ none
  /-- The failure of the output counts, whatever became of the errors. -/
  output_failed : ∀ e, child.output.failure = some e → ended.1 = .error (.system e)
  /-- The failure of the errors counts if the output came to its end. -/
  error_failed : child.output.failure = none → ∀ e, child.error.failure = some e →
    ended.1 = .error (.system e)
  /-- Without a failure the exit status is handed on. -/
  ended : child.output.failure = none → child.error.failure = none →
    ended.1 = .ok (some child.status)

/-- **Failed launch** — the fault is passed on, nothing is stopped or waited for, and the files
that were opened are empty. -/
structure Launch.Fails (fault : Fault) (output error : Sink) (w : World)
    (ended : Except Fault (Option Int) × World) : Prop where
  raised : ended.1 = .error fault
  reaped : ended.2.events.count .reaped = w.events.count .reaped
  killed : ended.2.events.count .killed = w.events.count .killed
  empty : ∀ place, output.place? = some place ∨ error.place? = some place → ∃ executable,
    ended.2.tree.at? place = some (.file [] executable)

/-! ## Files that stay empty -/

namespace Sink

/-- A sink that nothing was written to leaves an empty file empty. -/
theorem at?_flushedTo_of_empty {sink : Sink} {t : Tree} {place : Location} {executable : Bool}
    (hsink : ∀ place, sink.place? = some place → sink = .target ⟨.file place, [], .empty⟩)
    (h : t.at? place = some (.file [] executable)) :
    (sink.flushedTo t).at? place = some (.file [] executable) := by
  by_cases hplace : sink.place? = some place
  · rw [hsink place hplace]
    exact at?_flushedTo_filled h []
  · exact (sink.frame_flushedTo t).at?_file (by simpa using hplace) h

/-- Two sinks that were opened one after the other leave their files empty as long as nothing
is written, also if both are the same file. -/
theorem at?_flushedTo_of_opened {host : Host} {directory : Text} {target target' : Option Text}
    {output error : Sink} {w w₁ w₂ : World} {place : Location}
    (houtput : (ofTarget host directory target).perform w = (.ok output, w₁))
    (herror : (ofTarget host directory target').perform w₁ = (.ok error, w₂))
    (hplace : output.place? = some place ∨ error.place? = some place) :
    ∃ executable, (output.flushedTo (error.flushedTo w₂.tree)).at? place =
      some (.file [] executable) := by
  obtain ⟨t, _, _, rfl, -, hopened⟩ := of_ofTarget_eq_ok houtput
  obtain ⟨t', _, _, rfl, hframe, hopened'⟩ := of_ofTarget_eq_ok herror
  obtain ⟨executable, hempty⟩ : ∃ executable, t'.at? place = some (.file [] executable) := by
    by_cases hsecond : error.place? = some place
    · exact (hopened' place hsecond).2
    · -- opening the errors elsewhere has left the file of the output alone
      obtain ⟨executable, hfirst⟩ := (hopened place (hplace.resolve_right hsecond)).2
      exact ⟨executable, hframe.at?_file (by simpa using hsecond) hfirst⟩
  refine ⟨executable, ?_⟩
  exact at?_flushedTo_of_empty (fun place h => (hopened place h).1)
    (at?_flushedTo_of_empty (fun place h => (hopened' place h).1) hempty)

end Sink

/-! ## A whole run -/

section Counting

variable {output error : Sink} {w : World} {t : Tree} {launch : Launch} {before after : List Event}

/-- A run in order is a life cycle: the drains stop the program once for each failure, and
nothing else in it stops the program or waits for it. -/
theorem Child.livesThrough_of_in_order {child : Child} {turns : List Channel}
    (hout : output.accepts = true) (herr : error.accepts = true)
    (hbefore : Preparing before) (hafter : Concluding after)
    (hclosed : after.filterMap Event.closed? = error.handle?.toList ++ output.handle?.toList) :
    child.LivesThrough turns launch output error w (child.outcome.map some,
      w.after t (before ++ .launched launch ::
        (((Draining.start child output error).complete turns).2 ++ .reaped :: after))) := by
  obtain ⟨hdrained, hevents⟩ := Draining.complete_start child hout herr turns
  have htogether : Together child.output child.error _ _ _ := hevents
  -- what comes before the launch and after the wait counts for neither
  have hfirst := fun event => hbefore.silent.count_eq_zero event
  have hlast := fun event => hafter.silent.count_eq_zero event
  exact {
    in_order := ⟨before, after, rfl, hbefore, hafter, hclosed⟩
    drained := by
      rw [hdrained]
      exact ⟨rfl, rfl, rfl, rfl⟩
    reaped := by simp [hfirst .reaped rfl, hlast .reaped rfl, htogether.count_reaped]
    killed := by simp [hfirst .killed rfl, hlast .killed rfl, htogether.count_killed]
    fails_iff := by
      rw [← Child.exists_outcome_eq_error_iff]
      cases child.outcome <;> simp [Except.map]
    output_failed := fun e h => by rw [Child.outcome_of_output_failed h]; rfl
    error_failed := fun h e h' => by rw [Child.outcome_of_error_failed h h']; rfl
    ended := fun h h' => by rw [Child.outcome_of_ended h h']; rfl }

/-- Where a launch fails behind the preparations, nothing is stopped or waited for. -/
theorem Launch.count_unlaunched (hbefore : Preparing before) (hafter : Concluding after)
    {event : Event} (hevent : event.isSilent = false) :
    (w.after t (before ++ .launched launch :: after)).events.count event =
      w.events.count event := by
  have hother : Event.launched launch ≠ event := by
    rintro rfl
    exact absurd hevent (by simp [Event.isSilent])
  simp [hbefore.silent.count_eq_zero event hevent, hafter.silent.count_eq_zero event hevent,
    List.count_cons_of_ne hother]

end Counting

namespace Program

section Run

variable {host : Host} (launcher : Launcher) {line : CommandLine} {state : State}
  {name executable : Text} {arguments : List Text} {output error : Sink} {w w₁ w₂ w₃ : World}

/-- **Life cycle** — a program whose targets open and take what is written to them either is
launched, and then drained, waited for and left in this order, or is not, and then nothing is
stopped or waited for. -/
theorem life_cycle
    (hwords : words line.command = name :: arguments)
    (hfind : (find host state.environment name).perform w = (.ok (some executable), w₁))
    (houtput : (Sink.ofTarget host state.directory line.output).perform w₁ = (.ok output, w₂))
    (herror : (Sink.ofTarget host state.directory line.error).perform w₂ = (.ok error, w₃))
    (hout : output.accepts = true) (herr : error.accepts = true) :
    let launch := launchOf state (name :: arguments) executable
    let started := launcher.start w₃.tree (output.place?.toList ++ error.place?.toList) launch
    let ended := (run host launcher line state).perform w
    (∀ child t, started = .ok (child, t) →
      child.LivesThrough (launcher.turns launch) launch output error w ended) ∧
    (∀ fault, started = .error fault → Launch.Fails fault output error w ended) := by
  intro launch started ended
  refine ⟨fun child t hstart => ?_, fun fault hstart => ?_⟩
  · obtain ⟨before, after, hbefore, hafter, hclosed, hrun⟩ :=
      perform_run_started hwords hfind houtput herror hout herr hstart
    rw [show ended = _ from hrun]
    exact Child.livesThrough_of_in_order hout herr hbefore hafter hclosed
  · obtain ⟨before, after, hbefore, hafter, hrun⟩ :=
      perform_run_unlaunched hwords hfind houtput herror hout herr hstart
    rw [show ended = _ from hrun]
    exact {
      raised := rfl
      reaped := Launch.count_unlaunched hbefore hafter rfl
      killed := Launch.count_unlaunched hbefore hafter rfl
      empty := fun place hplace => Sink.at?_flushedTo_of_opened houtput herror hplace }

end Run

/-- A program both of whose streams fail, with its output going to a file, and the same program
when it cannot be launched. -/
theorem life_cycle_both_fail :
    let host : Host := ⟨[], [], none, 990⟩
    let state : State := ⟨"/", [("PATH", "/bin")]⟩
    let child : Child :=
      ⟨.ofText "one\ntwo" (some ⟨.denied, none⟩), .ofText "three\n" (some ⟨.noSpace, none⟩), 1⟩
    let launcher (behaviour : Except SystemError Child) : Launcher :=
      .ofTable [("ls", behaviour)] fun _ => [.error, .output, .error]
    let line : CommandLine := ⟨"ls", some "out", none⟩
    let launch : Launch := launchOf state ["ls"] "/bin/ls"
    let w : World := ⟨Tree.empty.put ["ls", "bin"] (.file [] true), .quiet, []⟩
    let sink : Sink := .target ⟨.file ["out"], [], .empty⟩
    child.LivesThrough [.error, .output, .error] launch sink .console w
      ((run host (launcher (.ok child)) line state).perform w) ∧
    Launch.Fails (.system ⟨.denied, none⟩) sink .console w
      ((run host (launcher (.error ⟨.denied, none⟩)) line state).perform w) := by
  intro host state child launcher line launch w sink
  let w₁ := ((find host state.environment "ls").perform w).2
  have hfind : ((find host state.environment "ls").perform w).1 = .ok (some "/bin/ls") := by
    decide +kernel
  have houtput : ((Sink.ofTarget host state.directory line.output).perform w₁).1 = .ok sink := by
    decide +kernel
  have hwords : words line.command = [("ls" : Text)] := by decide +kernel
  have hcycle := fun behaviour => life_cycle (launcher behaviour) hwords (Prod.fst_eq_iff.mp hfind)
    (Prod.fst_eq_iff.mp houtput) (Sink.perform_ofTarget_none ..) rfl rfl
  exact ⟨(hcycle (.ok child)).1 child _ rfl, (hcycle (.error ⟨.denied, none⟩)).2 _ rfl⟩

end Program

end LineShell
