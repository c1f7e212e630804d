/-
# LineShell.Proofs.Program.Perform -- what running a program comes to

Running a program looks it up, opens its targets, starts it, drains it, waits for it and
closes the targets. The rules here give the result and the world of each of these parts,
so that a claim about programs follows by putting together the ones it needs: what a look-up
finds (`perform_find`), what comes of opening a sink (`ofTarget_cases`), what draining
leaves in sinks that accept bytes (`Draining.complete_start`), and what closing them does
(`perform_close`). Put together they tell a run from its beginning to its end, both where the
program is started (`perform_run_started`) and where it is not (`perform_run_unlaunched`).
-/

import LineShell.Program
import LineShell.Proofs.Child.Interleaving
import LineShell.Proofs.Target.Redirected

namespace LineShell

/-! ## Before and after a program -/

/-- **Preparing** — nothing but messages and openings happened. -/
def Preparing (events : List Event) : Prop :=
  ∀ event ∈ events, (∃ m, event = .logged m) ∨ ∃ handle, event = .opened handle

/-- **Concluding** — nothing but messages and closings happened. -/
def Concluding (events : List Event) : Prop :=
  ∀ event ∈ events, (∃ m, event = .logged m) ∨ ∃ handle, event = .closed handle

theorem Quiet.preparing {events : List Event} (h : Quiet events) : Preparing events :=
  fun event he => .inl (h event he)

theorem Quiet.concluding {events : List Event} (h : Quiet events) : Concluding events :=
  fun event he => .inl (h event he)

theorem preparing_opened (handle : Handle) : Preparing [.opened handle] := by
  simp [Preparing]

theorem concluding_closed (handles : List Handle) : Concluding (handles.map .closed) := by
  intro event he
  obtain ⟨handle, -, rfl⟩ := List.mem_map.mp he
  exact .inr ⟨handle, rfl⟩

@[simp] theorem closed?_map_closed (handles : List Handle) :
    (handles.map Event.closed).filterMap Event.closed? = handles := by
  rw [List.filterMap_map]
  exact List.filterMap_some

theorem Preparing.append {first second : List Event} (h : Preparing first)
    (h' : Preparing second) : Preparing (first ++ second) :=
  List.forall_mem_append.mpr ⟨h, h'⟩

theorem Concluding.append {first second : List Event} (h : Concluding first)
    (h' : Concluding second) : Concluding (first ++ second) :=
  List.forall_mem_append.mpr ⟨h, h'⟩

/-! ## Sinks -/

namespace Sink

/-- The handle that a sink writes to. -/
def handle? : Sink → Option Handle
  | console => none
  | target writer => some writer.handle

/-- The sink takes all that is written. -/
def accepts : Sink → Bool
  | console => true
  | target writer => writer.accepts

/-- The sink after lines have been written to it. -/
def filled (lines : List Text) : Sink → Sink
  | console => console
  | target writer => target (writer.writeLines lines)

/-- The lines that show on the console when they are written to the sink. -/
def shown (lines : List Text) : Sink → List Text
  | console => lines
  | target _ => []

/-- The tree once the sink is closed. -/
def flushedTo (t : Tree) : Sink → Tree
  | console => t
  | target writer => writer.flushedTo t

/-- What closing the sink makes of an outcome. -/
def settled {α : Type} (outcome : Except Fault α) : Sink → Except Fault α
  | console => outcome
  | target writer => writer.settled outcome

@[simp] theorem handle?_filled (lines : List Text) (sink : Sink) :
    (sink.filled lines).handle? = sink.handle? := by
  cases sink <;> simp [filled, handle?]

theorem settled_of_accepts {α : Type} {sink : Sink} (h : sink.accepts = true)
    (outcome : Except Fault α) : sink.settled outcome = outcome := by
  cases sink with
  | console => rfl
  | target writer => exact Writer.settled_of_accepts h outcome

theorem accepts_filled {sink : Sink} (h : sink.accepts = true) (lines : List Text) :
    (sink.filled lines).accepts = true := by
  cases sink with
  | console => rfl
  | target writer => simpa [filled, accepts, Writer.accepts] using h

/-- Closing a sink flushes it; the console stays open. -/
@[simp] theorem perform_close {α : Type} (sink : Sink) (outcome : Except Fault α) (w : World) :
    (sink.close outcome).perform w =
      (.ok (sink.settled outcome),
        w.after (sink.flushedTo w.tree) (sink.handle?.toList.map .closed)) := by
  cases sink with
  | console => simp [close, settled, flushedTo, handle?]
  | target writer => simp [close, settled, flushedTo, handle?]

/-- Flushing a sink changes the file that it writes to and no other. -/
theorem frame_flushedTo (sink : Sink) (t : Tree) :
    Tree.Frame sink.place?.toList t (sink.flushedTo t) := by
  cases sink with
  | console => exact .refl _ _
  | target writer =>
    obtain ⟨handle, pieces, buffer⟩ := writer
    cases handle with
    | file place => exact Tree.frame_writeFile t place _ _
    | device device => exact .refl _ _

@[simp] theorem perform_ofTarget_none (host : Host) (directory : Text) (w : World) :
    (ofTarget host directory none).perform w = (.ok .console, w) := rfl

theorem perform_ofTarget_some {host : Host} {directory path : Text} {writer : Writer}
    {w w' : World} (h : (Target.openWriter host path directory).perform w = (.ok writer, w')) :
    (ofTarget host directory (some path)).perform w = (.ok (.target writer), w') := by
  simp only [ofTarget, Action.perform_bind, h, Action.perform_pure]

/-- **Opening a sink** for a target fails, or the sink writes to what was opened. -/
theorem ofTarget_cases (host : Host) (directory path : Text) (w : World) :
    ∃ t events, Quiet events ∧
      ((∃ fault, (ofTarget host directory (some path)).perform w =
            (.error fault, w.after t events) ∧ Tree.Frame [] w.tree t) ∨
        ∃ handle, (ofTarget host directory (some path)).perform w =
            (.ok (.target ⟨handle, [], .empty⟩), w.after t (events ++ [.opened handle])) ∧
          Target.Redirected host.directory (Target.resolve path directory) [] w.tree t
            [handle]) := by
  obtain ⟨t, events, hquiet, ⟨fault, hopen, hframe⟩ | ⟨handle, hopen, hred⟩⟩ :=
    Target.openWriter_cases host path directory w
  · refine ⟨t, events, hquiet, .inl ⟨fault, ?_, hframe⟩⟩
    simp only [ofTarget, Action.perform_bind, hopen]
  · exact ⟨t, events, hquiet, .inr ⟨handle, perform_ofTarget_some hopen, hred⟩⟩

/-- A sink that was opened is the console or a writer that holds nothing yet, and the file
that it writes to is empty. -/
theorem of_ofTarget_eq_ok {host : Host} {directory : Text} {target : Option Text} {sink : Sink}
    {w w' : World} (h : (ofTarget host directory target).perform w = (.ok sink, w')) :
    ∃ t events, Preparing events ∧ w' = w.after t events ∧
      Tree.Frame sink.place?.toList w.tree t ∧
      ∀ place, sink.place? = some place →
        sink = .target ⟨.file place, [], .empty⟩ ∧
          ∃ executable, t.at? place = some (.file [] executable) := by
  cases target with
  | none =>
    rw [perform_ofTarget_none, Prod.mk.injEq] at h
    obtain ⟨hsink, rfl⟩ := h
    obtain rfl := Except.ok.inj hsink
    exact ⟨w.tree, [], quiet_nil.preparing, by simp, .refl _ _, by simp [place?]⟩
  | some path =>
    obtain ⟨t, events, hquiet, ⟨fault, hopen, -⟩ | ⟨handle, hopen, hred⟩⟩ :=
      ofTarget_cases host directory path w <;> rw [hopen, Prod.mk.injEq] at h
    · exact absurd h.1 (by simp)
    · obtain ⟨hsink, rfl⟩ := h
      obtain rfl := Except.ok.inj hsink
      refine ⟨_, _, hquiet.preparing.append (preparing_opened handle), rfl, ?_, ?_⟩
      · cases handle with
        | file place => exact hred.frame
        | device device => exact hred.frame
      · cases handle with
        | device device => simp [place?]
        | file place =>
          intro other hother
          obtain rfl := Option.some.inj hother
          exact ⟨rfl, hred.at?_of_mem (by simp)⟩

end Sink

/-- A sink that accepts bytes gets all lines of the stream. -/
theorem Drain.drained_start (channel : Channel) (stream : Stream) {sink : Sink}
    (h : sink.accepts = true) :
    (start stream sink).drained channel =
      (⟨⟨[], stream.failure⟩, sink.filled stream.lines, stream.condition⟩,
        (sink.shown stream.lines).map (lineEvent channel) ++ stream.kills) := by
  cases sink with
  | console => exact drained_console channel stream
  | target writer =>
    have haccepts : writer.accepts = true := h
    simpa [Sink.shown, Sink.filled] using drained_target channel stream haccepts

/-! ## The parts of a run -/

/-- **Outcome** — what a program ends with: the failure of its output, or else that of its
errors, or else its exit status. -/
def Child.outcome (child : Child) : Except Fault Int :=
  match child.output.failure, child.error.failure with
  | some error, _ => .error (.system error)
  | none, some error => .error (.system error)
  | none, none => .ok child.status

namespace Child

variable {child : Child}

theorem outcome_of_output_failed {e : SystemError} (h : child.output.failure = some e) :
    child.outcome = .error (.system e) := by
  rw [outcome, h]

theorem outcome_of_error_failed {e : SystemError} (h : child.output.failure = none)
    (h' : child.error.failure = some e) : child.outcome = .error (.system e) := by
  rw [outcome, h, h']

theorem outcome_of_ended (h : child.output.failure = none) (h' : child.error.failure = none) :
    child.outcome = .ok child.status := by
  rw [outcome, h, h']

theorem exists_outcome_eq_error_iff : (∃ fault, child.outcome = .error fault) ↔
    child.output.failure ≠ none ∨ child.error.failure ≠ none := by
  rcases h : child.output.failure with _ | e
  · rcases h' : child.error.failure with _ | e'
    · simp [outcome_of_ended h h']
    · simp [outcome_of_error_failed h h']
  · simp [outcome_of_output_failed h]

/-- A program ends in no other fault than a failure of one of its streams. -/
theorem exists_system_of_outcome_eq_error {fault : Fault} (h : child.outcome = .error fault) :
    ∃ e, fault = .system e := by
  rcases hout : child.output.failure with _ | e
  · rcases herr : child.error.failure with _ | e'
    · rw [outcome_of_ended hout herr] at h
      exact absurd h (by simp)
    · rw [outcome_of_error_failed hout herr] at h
      exact ⟨e', (Except.error.inj h).symm⟩
  · rw [outcome_of_output_failed hout] at h
    exact ⟨e, (Except.error.inj h).symm⟩

end Child

/-- A whole run gives every line to the sink of its stream, whatever the schedule. -/
theorem Draining.complete_start (child : Child) {output error : Sink}
    (houtput : output.accepts = true) (herror : error.accepts = true) (turns : List Channel) :
    let drained := (start child output error).complete turns
    drained.1 =
      ⟨⟨⟨[], child.output.failure⟩, output.filled child.output.lines, child.output.condition⟩,
        ⟨⟨[], child.error.failure⟩, error.filled child.error.lines, child.error.condition⟩⟩ ∧
    Interleave ((output.shown child.output.lines).map .printed ++ child.output.kills)
      ((error.shown child.error.lines).map .complained ++ child.error.kills) drained.2 := by
  obtain ⟨hend, hevents⟩ := complete_eq (start child output error) turns
  have hout := Drain.drained_start .output child.output houtput
  have herr := Drain.drained_start .error child.error herror
  simp only [start, hout, herr] at hend hevents
  exact ⟨hend, hevents⟩

/-- What draining comes to is what the program ends with, apart from its exit status. -/
theorem Draining.outcome_complete_start (child : Child) {output error : Sink}
    (houtput : output.accepts = true) (herror : error.accepts = true) (turns : List Channel) :
    ((start child output error).complete turns).1.outcome.map (fun _ => child.status) =
      child.outcome := by
  rw [(complete_start child houtput herror turns).1]
  simp only [outcome, Stream.condition, Child.outcome]
  cases child.output.failure <;> cases child.error.failure <;> rfl

namespace Program

/-- The messages about a look-up, by what it found. -/
def findNotes (limit : Level) (command : Text) : Except SystemError (Option Text) → List Event
  | .error _ => []
  | .ok (some path) =>
    Message.eventsAt limit ⟨.debug, "Resolved '" ++ command ++ "' to: " ++ path⟩
  | .ok none =>
    if Text.allBlank command then []
    else Message.eventsAt limit ⟨.debug, "Command '" ++ command ++ "' not found in PATH"⟩

theorem quiet_findNotes (limit : Level) (command : Text)
    (found : Except SystemError (Option Text)) : Quiet (findNotes limit command found) := by
  unfold findNotes
  split
  · exact quiet_nil
  · exact quiet_eventsAt _ _
  · split
    · exact quiet_nil
    · exact quiet_eventsAt _ _

/-- Looking a program up is quiet and leaves the tree alone. -/
theorem perform_find (host : Host) (environment : Environment) (command : Text) (w : World) :
    let found := Search.program w.tree host.directory (Search.pathOf host environment) command
    (find host environment command).perform w =
      (found.mapError Fault.system, w.after w.tree (findNotes w.limit command found)) := by
  simp only [find, Action.perform_bind, Action.perform_tree]
  rcases Search.program w.tree host.directory (Search.pathOf host environment) command with
    error | found | path
  · exact congrArg (Prod.mk _) w.after_self.symm
  · by_cases hblank : Text.allBlank command
    · simp only [findNotes, hblank, if_true, Action.perform_pure, World.after_self]
      rfl
    · simp only [findNotes, hblank, Bool.false_eq_true, if_false, Action.perform_bind,
        Action.perform_log, Action.perform_pure]
      rfl
  · simp only [findNotes, Action.perform_bind, Action.perform_log, Action.perform_pure]
    rfl

/-- Draining a program is a whole run of its two drains, after which it is waited for. -/
theorem perform_drain_eq (turns : List Channel) (child : Child) (output error : Sink)
    (w : World) :
    let drained := (Draining.start child output error).complete turns
    (drain turns child output error).perform w =
      (.ok (drained.1.output.sink, drained.1.error.sink,
          drained.1.outcome.map fun _ => child.status),
        w.after w.tree (drained.2 ++ [.reaped])) := by
  simp only [drain, Action.perform_bind, Action.perform_emitAll, Action.perform_emit,
    Action.perform_pure, World.after_after, World.tree_after]

theorem perform_forM_note (messages : List Message) (w : World) :
    (messages.forM Action.note).perform w =
      (.ok (), w.after w.tree (messages.flatMap (Message.eventsAt w.limit))) := by
  induction messages generalizing w with
  | nil => exact congrArg (Prod.mk _) w.after_self.symm
  | cons m rest ih =>
    show (Action.note m >>= fun _ => rest.forM Action.note).perform w = _
    simp only [Action.perform_bind, Action.perform_note, ih, World.tree_after, World.limit_after,
      World.after_after, List.flatMap_cons]

/-- Announcing a launch is quiet. -/
theorem quiet_announcements (launcher : Launcher) (launch : Launch) (limit : Level) :
    Quiet ((launcher.announce launch).flatMap (Message.eventsAt limit)) := by
  intro event he
  obtain ⟨m, -, hm⟩ := List.mem_flatMap.mp he
  exact quiet_eventsAt limit m event hm

/-- A program is announced and launched; unless its start fails it is drained then. -/
theorem perform_conduct (launcher : Launcher) (launch : Launch) (output error : Sink)
    (w : World) :
    let launched :=
      (launcher.announce launch).flatMap (Message.eventsAt w.limit) ++ [.launched launch]
    (conduct launcher launch output error).perform w =
      match launcher.start w.tree (output.place?.toList ++ error.place?.toList) launch with
      | .error fault => (.ok (output, error, .error fault), w.after w.tree launched)
      | .ok (child, t) =>
        (drain (launcher.turns launch) child output error).perform (w.after t launched) := by
  simp only [conduct, Action.perform_bind, perform_forM_note, Action.perform_emit,
    Action.perform_tree, World.tree_after, World.after_after]
  rcases launcher.start w.tree (output.place?.toList ++ error.place?.toList) launch with
    fault | ⟨child, t⟩
  · rfl
  · simp [Action.perform_bind]

/-- The end of a run: the error target is closed first, and the last failure counts. -/
theorem perform_runFound {host : Host} {launcher : Launcher} {line : CommandLine}
    {state : State} {name executable : Text} {arguments : List Text}
    {output error output' error' : Sink} {outcome : Except Fault Int} {w w₁ w₂ w₃ : World}
    (houtput : (Sink.ofTarget host state.directory line.output).perform w = (.ok output, w₁))
    (herror : (Sink.ofTarget host state.directory line.error).perform w₁ = (.ok error, w₂))
    (hconduct : (conduct launcher (launchOf state (name :: arguments) executable) output
      error).perform w₂ = (.ok (output', error', outcome), w₃)) :
    let closed := w₃.after (output'.flushedTo (error'.flushedTo w₃.tree))
      ((error'.handle?.toList ++ output'.handle?.toList).map .closed)
    (runFound host launcher line state name arguments executable).perform w =
      match output'.settled (error'.settled outcome) with
      | .error fault => (.error fault, closed)
      | .ok status =>
        (.ok status, closed.after closed.tree ((exitMessage name status).eventsAt w₃.limit)) := by
  simp only [runFound, Action.perform_bind, houtput, Action.perform_attempt, herror, hconduct,
    Sink.perform_close, Action.perform_ofExcept, World.tree_after, World.after_after,
    List.map_append]
  cases output'.settled (error'.settled outcome) with
  | error fault => rfl
  | ok status => simp

/-! ## A whole run -/

section Run

variable {host : Host} {launcher : Launcher} {line : CommandLine} {state : State}
  {name executable : Text} {arguments : List Text} {output error : Sink} {w w₁ w₂ w₃ : World}

/-- Looking a program up and opening its targets is a preparation. -/
theorem exists_preparation
    (hfind : (find host state.environment name).perform w = (.ok (some executable), w₁))
    (houtput : (Sink.ofTarget host state.directory line.output).perform w₁ = (.ok output, w₂))
    (herror : (Sink.ofTarget host state.directory line.error).perform w₂ = (.ok error, w₃)) :
    ∃ events, Preparing events ∧ w₃ = w.after w₃.tree events := by
  obtain ⟨notes, hnotes, rfl⟩ : ∃ notes, Preparing notes ∧ w₁ = w.after w.tree notes := by
    have hw := perform_find host state.environment name w
    dsimp only at hw
    rw [hfind, Prod.mk.injEq] at hw
    exact ⟨_, (quiet_findNotes _ _ _).preparing, hw.2⟩
  obtain ⟨t, first, hfirst, rfl, -, -⟩ := Sink.of_ofTarget_eq_ok houtput
  obtain ⟨t', second, hsecond, rfl, -, -⟩ := Sink.of_ofTarget_eq_ok herror
  refine ⟨notes ++ first ++ second, (hnotes.append hfirst).append hsecond, ?_⟩
  simp only [World.after_after, World.tree_after]

/-- Starting a program whose sinks accept bytes: they are filled, and it is waited for when
both streams are drained. -/
theorem perform_conduct_started {launch : Launch} {child : Child} {t : Tree}
    (hout : output.accepts = true) (herr : error.accepts = true)
    (hstart : launcher.start w.tree (output.place?.toList ++ error.place?.toList) launch =
      .ok (child, t)) :
    (conduct launcher launch output error).perform w =
      (.ok (output.filled child.output.lines, error.filled child.error.lines, child.outcome),
        w.after t ((launcher.announce launch).flatMap (Message.eventsAt w.limit) ++
          .launched launch ::
            (((Draining.start child output error).complete (launcher.turns launch)).2 ++
              [.reaped]))) := by
  have hend := (Draining.complete_start child hout herr (launcher.turns launch)).1
  have houtcome := Draining.outcome_complete_start child hout herr (launcher.turns launch)
  rw [perform_conduct]
  simp only [hstart, perform_drain_eq, World.after_after, World.tree_after]
  rw [houtcome, hend, List.append_assoc, List.singleton_append]

/-- **A program that is started** with sinks that accept bytes is drained, then waited for,
and then its targets are closed. -/
theorem perform_run_started {child : Child} {t : Tree}
    (hwords : words line.command = name :: arguments)
    (hfind : (find host state.environment name).perform w = (.ok (some executable), w₁))
    (houtput : (Sink.ofTarget host state.directory line.output).perform w₁ = (.ok output, w₂))
    (herror : (Sink.ofTarget host state.directory line.error).perform w₂ = (.ok error, w₃))
    (hout : output.accepts = true) (herr : error.accepts = true)
    (hstart : launcher.start w₃.tree (output.place?.toList ++ error.place?.toList)
      (launchOf state (name :: arguments) executable) = .ok (child, t)) :
    let launch := launchOf state (name :: arguments) executable
    let drained := (Draining.start child output error).complete (launcher.turns launch)
    ∃ before after, Preparing before ∧ Concluding after ∧
      after.filterMap Event.closed? = error.handle?.toList ++ output.handle?.toList ∧
      (run host launcher line state).perform w =
        (child.outcome.map some,
          w.after ((output.filled child.output.lines).flushedTo
              ((error.filled child.error.lines).flushedTo t))
            (before ++ .launched launch :: (drained.2 ++ .reaped :: after))) := by
  intro launch drained
  obtain ⟨prepared, hprepared, hw₃⟩ := exists_preparation hfind houtput herror
  have hbefore := hprepared.append (quiet_announcements launcher launch w₃.limit).preparing
  have hrun := perform_runFound houtput herror (perform_conduct_started hout herr hstart)
  rw [Sink.settled_of_accepts (Sink.accepts_filled herr _),
    Sink.settled_of_accepts (Sink.accepts_filled hout _)] at hrun
  simp only [World.tree_after, World.limit_after, World.after_after, Sink.handle?_filled] at hrun
  let handles := error.handle?.toList ++ output.handle?.toList
  -- the exit status is noted, if there is one
  rcases hstatus : child.outcome with fault | status <;> rw [hstatus] at hrun
  · refine ⟨_, handles.map .closed, hbefore, concluding_closed handles, closed?_map_closed handles,
      ?_⟩
    simp only [run, hwords, Action.perform_bind, hfind, hrun]
    rw [hw₃]
    simp [Except.map, launch, drained, handles]
  · have hquiet := quiet_eventsAt w₃.limit (exitMessage name status)
    refine ⟨_, handles.map .closed ++ (exitMessage name status).eventsAt w₃.limit, hbefore,
      (concluding_closed handles).append hquiet.concluding, ?_, ?_⟩
    · rw [List.filterMap_append, closed?_map_closed, hquiet.filterMap_eq_nil fun _ => rfl,
        List.append_nil]
    · simp only [run, hwords, Action.perform_bind, hfind, hrun]
      rw [hw₃]
      simp [Except.map, launch, drained, handles]

/-- **A program that cannot be launched** leaves its sinks as they were opened, and they are
closed. -/
theorem perform_run_unlaunched {fault : Fault}
    (hwords : words line.command = name :: arguments)
    (hfind : (find host state.environment name).perform w = (.ok (some executable), w₁))
    (houtput : (Sink.ofTarget host state.directory line.output).perform w₁ = (.ok output, w₂))
    (herror : (Sink.ofTarget host state.directory line.error).perform w₂ = (.ok error, w₃))
    (hout : output.accepts = true) (herr : error.accepts = true)
    (hstart : launcher.start w₃.tree (output.place?.toList ++ error.place?.toList)
      (launchOf state (name :: arguments) executable) = .error fault) :
    let launch := launchOf state (name :: arguments) executable
    ∃ before after, Preparing before ∧ Concluding after ∧
      (run host launcher line state).perform w =
        (.error fault, w.after (output.flushedTo (error.flushedTo w₃.tree))
          (before ++ .launched launch :: after)) := by
  intro launch
  obtain ⟨prepared, hprepared, hw₃⟩ := exists_preparation hfind houtput herror
  have hbefore := hprepared.append (quiet_announcements launcher launch w₃.limit).preparing
  have hconduct := perform_conduct launcher launch output error w₃
  simp only [launch, hstart] at hconduct
  have hrun := perform_runFound houtput herror hconduct
  rw [Sink.settled_of_accepts herr, Sink.settled_of_accepts hout] at hrun
  refine ⟨_, _, hbefore, concluding_closed (error.handle?.toList ++ output.handle?.toList), ?_⟩
  simp only [run, hwords, Action.perform_bind, hfind, hrun]
  rw [hw₃]
  simp [launch]

end Run

end Program
end LineShell
