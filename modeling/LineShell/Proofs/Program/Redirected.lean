/-
# LineShell.Proofs.Program.Redirected -- what a program leaves in its target

A command line that was split has one target at most. What its command does to the tree is
then told by that target and by the text that the command sends down the channel which is
redirected (`Target.Redirects`).

For a program that text is made of the lines of its stream, each ended (`run_redirects`).
The lines arrive whatever becomes of the other stream and of the program; if the launch
fails there are none. A sink keeps its handle while it is drained, and takes all lines if
it takes any text at all (`Sink.Took`). Nothing is opened on the way (`opened?_turns`), so
the target is all that a program opens.
-/

import LineShell.Launcher.Table
import LineShell.Proofs.Action.Leaves
import LineShell.Proofs.Program.Perform

namespace LineShell

/-! ## One target -/

/-- The channel that a command line redirects, and its target. -/
def CommandLine.redirect? (line : CommandLine) : Option (Channel × Text) :=
  match line.output, line.error with
  | some path, _ => some (.output, path)
  | none, some path => some (.error, path)
  | none, none => none

/-- The command line has one target at most. -/
def CommandLine.IsSingle (line : CommandLine) : Prop := line.output = none ∨ line.error = none

namespace Target

/-- **Redirects** — what a command does to the tree that sends `text` down the channels: it
redirects the text of the channel that has a target, and without a target it does nothing. -/
def Redirects (host : Host) (directory : Text) (line : CommandLine) (text : Channel → Text)
    (t t' : Tree) (handles : List Handle) : Prop :=
  match line.redirect? with
  | none => t' = t ∧ handles = []
  | some (channel, path) =>
    Redirected host.directory (resolve path directory) (text channel) t t' handles

/-- A command that opens nothing and leaves the tree alone redirects any text. -/
theorem Redirects.refl (host : Host) (directory : Text) (line : CommandLine)
    (text : Channel → Text) (t : Tree) : Redirects host directory line text t t [] := by
  unfold Redirects
  split
  · exact ⟨rfl, rfl⟩
  · exact .nothing (.refl [] t)

theorem fill_leaves (host : Host) (path directory text : Text) (w : World) :
    (fill host path directory text).Leaves w
      (Redirected host.directory (resolve path directory) text w.tree) := by
  obtain ⟨result, t, events, handles, hquiet, hfill, hred⟩ :=
    perform_fill host path directory text w
  refine ⟨result, t, _, hfill, ?_⟩
  rw [List.filterMap_append, hquiet.opened?, opened?_openings]
  exact hred

theorem touch_leaves (host : Host) (path directory : Text) (w : World) :
    (touch host path directory).Leaves w
      (Redirected host.directory (resolve path directory) [] w.tree) := by
  obtain ⟨result, t, events, handles, hquiet, htouch, hred⟩ := perform_touch host path directory w
  refine ⟨result, t, _, htouch, ?_⟩
  rw [List.filterMap_append, hquiet.opened?, opened?_openings]
  exact hred

end Target

/-! ## Draining any sink -/

namespace Drain

/-- A turn keeps the handle of its sink and opens nothing. -/
theorem turn_handle (channel : Channel) (d : Drain) :
    (d.turn channel).1.sink.handle? = d.sink.handle? ∧
      (d.turn channel).2.filterMap Event.opened? = [] := by
  obtain ⟨⟨lines, failure⟩, sink, condition⟩ := d
  cases condition with
  | finished => exact ⟨rfl, rfl⟩
  | failed fault => exact ⟨rfl, rfl⟩
  | running =>
    cases lines with
    | nil => cases failure <;> exact ⟨rfl, rfl⟩
    | cons line rest =>
      cases sink with
      | console => cases channel <;> exact ⟨rfl, rfl⟩
      | target writer =>
        have hhandle : (writer.write (line ++ ['\n'])).1.handle = writer.handle := rfl
        rcases hw : writer.write (line ++ ['\n']) with ⟨next, _ | _⟩ <;> rw [hw] at hhandle <;>
          simp only [turn, hw]
        · exact ⟨congrArg some hhandle, rfl⟩
        · exact ⟨congrArg some hhandle, rfl⟩

theorem turns_handle (channel : Channel) (n : Nat) (d : Drain) :
    (turns channel n d).1.sink.handle? = d.sink.handle? ∧
      (turns channel n d).2.filterMap Event.opened? = [] := by
  induction n generalizing d with
  | zero => exact ⟨rfl, rfl⟩
  | succ n ih =>
    obtain ⟨hhandle, hopened⟩ := turn_handle channel d
    obtain ⟨hrest, hopened'⟩ := ih (d.turn channel).1
    refine ⟨hrest.trans hhandle, ?_⟩
    simp only [turns, List.filterMap_append, hopened, hopened', List.append_nil]

end Drain

namespace Sink

/-- **Took** — a sink that was given lines: it has kept its handle, and holds all the lines
if it accepts text. -/
def Took (lines : List Text) (sink sink' : Sink) : Prop :=
  sink'.handle? = sink.handle? ∧ (sink.accepts = true → sink' = sink.filled lines)

namespace Took

variable {lines : List Text} {sink sink' : Sink}

theorem refl (sink : Sink) : Took [] sink sink := by
  refine ⟨rfl, fun _ => ?_⟩
  cases sink <;> rfl

theorem filled (lines : List Text) (sink : Sink) : Took lines sink (sink.filled lines) :=
  ⟨handle?_filled lines sink, fun _ => rfl⟩

/-- The console stays the console. -/
theorem eq_console (h : Took lines .console sink') : sink' = .console := h.2 rfl

/-- A stream that is drained gives its lines to its sink. -/
theorem drained (channel : Channel) (stream : Stream) (sink : Sink) :
    Took stream.lines sink ((Drain.start stream sink).drained channel).1.sink := by
  refine ⟨(Drain.turns_handle channel _ _).1, fun haccepts => ?_⟩
  rw [Drain.drained_start channel stream haccepts]

/-- What was given to a target takes the place of the empty text once the sink is closed. -/
theorem redirected {base : Location} {path : Text} {t t' : Tree} {handle : Handle}
    (h : Took lines (.target ⟨handle, [], .empty⟩) sink')
    (hopened : Target.Redirected base path [] t t' [handle]) :
    Target.Redirected base path (Text.ofLines lines) t (sink'.flushedTo t') [handle] := by
  obtain ⟨hhandle, hfilled⟩ := h
  cases handle with
  | file place =>
    have hwritten := Target.Redirected.flushed (Writer.writeLines ⟨.file place, [], .empty⟩ lines)
      (by rw [Writer.handle_writeLines]; exact hopened)
    rw [Writer.text_writeLines, Writer.handle_writeLines] at hwritten
    rw [hfilled (by rfl)]
    exact hwritten
  | device device =>
    -- a device holds nothing, whatever it took
    have hframe : sink'.flushedTo t' = t' := by
      cases sink' with
      | console => rfl
      | target writer =>
        obtain ⟨handle, pieces, buffer⟩ := writer
        obtain rfl : handle = .device device := Option.some.inj hhandle
        rfl
    rw [hframe]
    cases hopened with
    | device _ h => exact .device device h

end Took
end Sink

/-! ## Programs of a table -/

/-- The lines that a program sends down a channel; there are none if it cannot be launched. -/
def Launcher.Table.lines (table : Table) (executable : Text) (channel : Channel) : List Text :=
  match table.behaviour executable, channel with
  | .error _, _ => []
  | .ok child, .output => child.output.lines
  | .ok child, .error => child.error.lines

namespace Program

section Table

variable {host : Host} (table : Launcher.Table) (turns : Launch → List Channel)

/-- Draining gives each sink the lines of its stream, and opens nothing. -/
theorem drain_took (turns : List Channel) (child : Child) (output error : Sink) (w : World) :
    ∃ output' error' outcome events,
      (drain turns child output error).perform w =
        (.ok (output', error', outcome), w.after w.tree events) ∧
      events.filterMap Event.opened? = [] ∧
      output.Took child.output.lines output' ∧ error.Took child.error.lines error' := by
  obtain ⟨hend, hevents⟩ := Draining.complete_eq (.start child output error) turns
  have hout := Sink.Took.drained .output child.output output
  have herr := Sink.Took.drained .error child.error error
  have hopened : ((Draining.start child output error).complete turns).2.filterMap
      Event.opened? = [] := by
    rw [hevents.filterMap_left _ (Drain.turns_handle .error _ _).2]
    exact (Drain.turns_handle .output _ _).2
  refine ⟨_, _, _, _, perform_drain_eq turns child output error w, ?_, ?_, ?_⟩
  · rw [List.filterMap_append, hopened]
    rfl
  · rw [hend]
    exact hout
  · rw [hend]
    exact herr

/-- A launch gives each sink the lines that the program has for it. -/
theorem conduct_took (launch : Launch) (output error : Sink) (w : World) :
    ∃ output' error' outcome events,
      (conduct (.ofTable table turns) launch output error).perform w =
        (.ok (output', error', outcome), w.after w.tree events) ∧
      events.filterMap Event.opened? = [] ∧
      output.Took (table.lines launch.executable .output) output' ∧
      error.Took (table.lines launch.executable .error) error' := by
  rw [perform_conduct]
  rcases hchild : table.behaviour launch.executable with e | child
  · have hstart := Launcher.start_ofTable_of_error turns w.tree
      (output.place?.toList ++ error.place?.toList) hchild
    simp only [hstart, Launcher.Table.lines, hchild]
    exact ⟨_, _, _, _, rfl, rfl, .refl output, .refl error⟩
  · have hstart := Launcher.start_ofTable_of_ok turns w.tree
      (output.place?.toList ++ error.place?.toList) hchild
    obtain ⟨output', error', outcome, events, hdrain, hopened, hout, herr⟩ :=
      drain_took (turns launch) child output error (w.after w.tree [.launched launch])
    simp only [hstart, Launcher.Table.lines, hchild]
    refine ⟨output', error', outcome, .launched launch :: events, ?_, ?_, hout, herr⟩
    · simpa [Launcher.ofTable] using hdrain
    · simpa [List.filterMap_cons, Event.opened?] using hopened

variable (line : CommandLine) {state : State} (name executable : Text) (arguments : List Text)

/-- With its targets open a program gives each sink its lines; the sinks are flushed, and
nothing more is opened. -/
theorem runFound_took {output error : Sink} {w w₁ w₂ : World}
    (houtput : (Sink.ofTarget host state.directory line.output).perform w = (.ok output, w₁))
    (herror : (Sink.ofTarget host state.directory line.error).perform w₁ = (.ok error, w₂)) :
    ∃ result output' error' events,
      (runFound host (.ofTable table turns) line state name arguments executable).perform w =
        (result, w₂.after (output'.flushedTo (error'.flushedTo w₂.tree)) events) ∧
      events.filterMap Event.opened? = [] ∧
      output.Took (table.lines executable .output) output' ∧
      error.Took (table.lines executable .error) error' := by
  obtain ⟨output', error', outcome, events, hconduct, hopened, hout, herr⟩ :=
    conduct_took table turns (launchOf state (name :: arguments) executable) output error w₂
  -- only messages and closings follow
  have hclosed : ((error'.handle?.toList ++ output'.handle?.toList).map
      Event.closed).filterMap Event.opened? = [] := by
    rw [List.filterMap_eq_nil_iff]
    intro event he
    obtain ⟨handle, -, rfl⟩ := List.mem_map.mp he
    rfl
  have hrun := perform_runFound houtput herror hconduct
  simp only [World.tree_after, World.after_after] at hrun
  rcases hsettled : output'.settled (error'.settled outcome) with fault | status <;>
    rw [hsettled] at hrun
  · refine ⟨_, output', error', _, hrun, ?_, hout, herr⟩
    rw [List.filterMap_append, hopened, hclosed, List.nil_append]
  · refine ⟨_, output', error', _, hrun, ?_, hout, herr⟩
    rw [List.filterMap_append, List.filterMap_append, hopened, hclosed,
      (quiet_eventsAt _ _).opened?]
    rfl

/-- With one target at most a program that was found redirects its lines. -/
theorem runFound_redirects (hsingle : line.IsSingle) (w : World) :
    (runFound host (.ofTable table turns) line state name arguments executable).Leaves w
      (Target.Redirects host state.directory line
        (fun channel => Text.ofLines (table.lines executable channel)) w.tree) := by
  obtain ⟨command, output, error⟩ := line
  cases output with
  | none =>
    cases error with
    | none =>
      obtain ⟨result, output', error', events, hrun, hopened, hout, herr⟩ :=
        runFound_took table turns ⟨command, none, none⟩ name executable arguments
          (Sink.perform_ofTarget_none ..) (Sink.perform_ofTarget_none ..)
      obtain rfl := hout.eq_console
      obtain rfl := herr.eq_console
      exact ⟨result, w.tree, events, hrun, rfl, hopened⟩
    | some path =>
      obtain ⟨t, before, hquiet, ⟨fault, hopen, hframe⟩ | ⟨handle, hopen, hred⟩⟩ :=
        Sink.ofTarget_cases host state.directory path w
      · refine ⟨.error fault, t, before, ?_, ?_⟩
        · simp only [runFound, Action.perform_bind, Sink.perform_ofTarget_none,
            Action.perform_attempt, hopen, Sink.perform_close, Action.perform_ofExcept]
          simp [Sink.settled, Sink.flushedTo, Sink.handle?]
        · rw [hquiet.opened?]
          exact .nothing hframe
      · -- the output goes to the console, so flushing it does nothing
        obtain ⟨result, output', error', events, hrun, hopened, hout, herr⟩ :=
          runFound_took table turns ⟨command, none, some path⟩ name executable arguments
            (Sink.perform_ofTarget_none ..) hopen
        obtain rfl := hout.eq_console
        rw [World.after_after] at hrun
        refine ⟨result, _, _, hrun, ?_⟩
        rw [List.filterMap_append, List.filterMap_append, hquiet.opened?, hopened]
        exact herr.redirected hred
  | some path =>
    obtain rfl : error = none := by
      rcases hsingle with h | h
      · simp at h
      · exact h
    obtain ⟨t, before, hquiet, ⟨fault, hopen, hframe⟩ | ⟨handle, hopen, hred⟩⟩ :=
      Sink.ofTarget_cases host state.directory path w
    · refine ⟨.error fault, t, before, ?_, ?_⟩
      · simp only [runFound, Action.perform_bind, hopen]
      · rw [hquiet.opened?]
        exact .nothing hframe
    · obtain ⟨result, output', error', events, hrun, hopened, hout, herr⟩ :=
        runFound_took table turns ⟨command, some path, none⟩ name executable arguments
          hopen (Sink.perform_ofTarget_none ..)
      obtain rfl := herr.eq_console
      rw [World.after_after] at hrun
      refine ⟨result, _, _, hrun, ?_⟩
      rw [List.filterMap_append, List.filterMap_append, hquiet.opened?, hopened]
      exact hout.redirected hred

/-- The text that a command sends down a channel which names a program: the lines of the
program that is found. -/
def written (host : Host) (table : Launcher.Table) (state : State) (t : Tree) (command : Text)
    (channel : Channel) : Text :=
  match words command with
  | [] => []
  | name :: _ =>
    match Search.program t host.directory (Search.pathOf host state.environment) name with
    | .ok (some executable) => Text.ofLines (table.lines executable channel)
    | _ => []

/-- No program runs for a command: it has no words, or no program is found by its first
one. -/
def FindsNothing (host : Host) (state : State) (t : Tree) (command : Text) : Prop :=
  match words command with
  | [] => True
  | name :: _ =>
    Search.program t host.directory (Search.pathOf host state.environment) name = .ok none

/-- **Running a program** with one target at most redirects what the program writes; if none
is found, nothing is opened and the tree stays. -/
theorem run_redirects (hsingle : line.IsSingle) (w : World) :
    (run host (.ofTable table turns) line state).Leaves w fun t handles =>
      Target.Redirects host state.directory line (written host table state w.tree line.command)
        w.tree t handles ∧
      (FindsNothing host state w.tree line.command → t = w.tree ∧ handles = []) := by
  unfold run
  rcases hwords : words line.command with _ | ⟨name, arguments⟩
  · exact (Action.still_pure none).leaves ⟨.refl _ _ _ _ _, fun _ => ⟨rfl, rfl⟩⟩
  · have hfind := perform_find host state.environment name w
    have hopened := (quiet_findNotes w.limit name (Search.program w.tree host.directory
      (Search.pathOf host state.environment) name)).opened?
    rcases hfound : Search.program w.tree host.directory
      (Search.pathOf host state.environment) name with e | _ | executable <;>
      simp only [hfound] at hfind hopened
    · exact Action.leaves_of_failed hfind hopened ⟨.refl _ _ _ _ _, fun _ => ⟨rfl, rfl⟩⟩
    · refine .behind hfind hopened (Action.Still.leaves ?_ ?_)
      · exact (Action.still_printLine _).bind fun _ => Action.still_pure _
      · exact ⟨.refl _ _ _ _ _, fun _ => ⟨rfl, rfl⟩⟩
    · -- what is written is told by the tree in which the program was found
      refine .behind hfind hopened (.bind ?_ fun _ => Action.still_pure _)
      refine (runFound_redirects table turns line name _ arguments hsingle _).mono
        fun t handles hred => ⟨?_, ?_⟩
      · simp only [Target.Redirects, written, hwords, hfound] at hred ⊢
        exact hred
      · simp [FindsNothing, hwords, hfound]

end Table

end Program
end LineShell
