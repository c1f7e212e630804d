/-
# LineShell.Proofs.Program.Notable -- what a user notices of a program

Of a program that is run a user notices its launch and then the lines of its output, as far
as they are not redirected, in order (`runFound_tells`). All lines of the output show that the
program yields, however it ends and whatever becomes of its errors: also if the error target
refuses them, and also if a stream fails in the end. If a target does not open there is no
launch, and nothing is noticed.
-/

import LineShell.Proofs.Action.Notable
import LineShell.Proofs.Program.Redirected

namespace LineShell

/-! ## Draining -/

namespace Drain

/-- A drain of errors prints nothing, and neither does one whose sink is a target. -/
theorem printed?_turn {channel : Channel} {d : Drain}
    (h : channel = .error ∨ d.sink.handle?.isSome = true) :
    (d.turn channel).2.filterMap Event.printed? = [] := by
  obtain ⟨⟨lines, failure⟩, sink, condition⟩ := d
  unfold turn
  split
  · cases sink with
    | console =>
      obtain rfl : channel = .error := h.resolve_right (by simp [Sink.handle?])
      rfl
    | target writer =>
      dsimp only
      split <;> rfl
  · split <;> rfl
  · rfl

theorem printed?_turns {channel : Channel} (n : Nat) {d : Drain}
    (h : channel = .error ∨ d.sink.handle?.isSome = true) :
    (turns channel n d).2.filterMap Event.printed? = [] := by
  induction n generalizing d with
  | zero => rfl
  | succ n ih =>
    -- the sink keeps its handle, so the next turns print nothing either
    have hnext : channel = .error ∨ (d.turn channel).1.sink.handle?.isSome = true := by
      rw [(turn_handle channel d).1]
      exact h
    rw [turns, List.filterMap_append, printed?_turn h, ih hnext]
    rfl

/-- A stream of output prints all its lines on the console, and none if it goes to a target. -/
theorem printed?_drained_output (stream : Stream) (sink : Sink) :
    ((start stream sink).drained .output).2.filterMap Event.printed? = sink.shown stream.lines := by
  cases sink with
  | console =>
    have hkills : stream.kills.filterMap Event.printed? = [] := by
      unfold Stream.kills
      cases stream.failure <;> rfl
    rw [drained_console, List.filterMap_append, hkills, List.append_nil, List.filterMap_map]
    exact List.filterMap_some
  | target writer => exact printed?_turns _ (.inr rfl)

end Drain

/-- What comes from a stream is notable exactly if it is printed. -/
theorem notable_of_isFromStream {events : List Event}
    (h : ∀ event ∈ events, event.isFromStream = true) :
    notable events = (events.filterMap Event.printed?).map .printed := by
  induction events with
  | nil => rfl
  | cons event rest ih =>
    have hrest := ih fun other hother => h other (List.mem_cons_of_mem _ hother)
    have hfirst := h event List.mem_cons_self
    cases event with
    | printed line => exact congrArg (Event.printed line :: ·) hrest
    | complained line => exact hrest
    | killed => exact hrest
    | _ => exact absurd hfirst (by simp [Event.isFromStream])

/-- Of draining a program only the lines on the console are notable. -/
theorem Draining.notable_complete (child : Child) (output error : Sink) (turns : List Channel) :
    notable ((start child output error).complete turns).2 =
      (output.shown child.output.lines).map .printed := by
  have hstream : ∀ event ∈ ((start child output error).complete turns).2,
      event.isFromStream = true := fun event he => isFromStream_of_mem_run he
  rw [notable_of_isFromStream hstream, (complete_eq (start child output error) turns).2.filterMap_left _
    (Drain.printed?_turns _ (.inl rfl))]
  exact congrArg _ (Drain.printed?_drained_output child.output output)

/-- The output goes to the console exactly if it has no target. -/
theorem Sink.shown_of_ofTarget {host : Host} {directory : Text} {target : Option Text}
    {sink : Sink} {w w' : World} (h : (ofTarget host directory target).perform w = (.ok sink, w'))
    (lines : List Text) : sink.shown lines = if target = none then lines else [] := by
  cases target with
  | none =>
    rw [perform_ofTarget_none] at h
    obtain rfl := Except.ok.inj (Prod.mk.inj h).1
    rfl
  | some path =>
    obtain ⟨t, events, -, ⟨fault, hopen, -⟩ | ⟨handle, hopen, -⟩⟩ :=
      ofTarget_cases host directory path w
    · exact absurd (congrArg Prod.fst (hopen.symm.trans h)) (by simp)
    · obtain rfl := Except.ok.inj (Prod.mk.inj (hopen.symm.trans h)).1
      rfl

namespace Program

open LineShell.Action

variable {host : Host}

/-! ## The parts of a run -/

theorem discreet_find (environment : Environment) (command : Text) :
    Discreet (find host environment command) := by
  refine discreet_tree.bind fun t => ?_
  split
  · exact discreet_throw _
  · exact (discreet_debug _).bind fun _ => discreet_pure _
  · split
    · exact discreet_pure none
    · exact (discreet_debug _).bind fun _ => discreet_pure none

theorem discreet_ofTarget (directory : Text) (target : Option Text) :
    Discreet (Sink.ofTarget host directory target) := by
  cases target with
  | none => exact discreet_pure _
  | some path => exact (Target.discreet_openWriter host path directory).bind fun _ => discreet_pure _

theorem discreet_close {α : Type} (sink : Sink) (outcome : Except Fault α) :
    Discreet (sink.close outcome) := by
  cases sink with
  | console => exact discreet_pure outcome
  | target writer => exact Target.discreet_closeWriter writer outcome

/-- What follows a program that has ended is discreet: its sinks are closed and its status is
noted. -/
theorem discreet_afterwards (name : Text) (output error : Sink) (outcome : Except Fault Int) :
    Discreet (do
      let outcome ← error.close outcome
      let outcome ← output.close outcome
      let status ← Action.ofExcept outcome
      note (exitMessage name status)
      return status) := by
  refine (discreet_close _ _).bind fun _ => (discreet_close _ _).bind fun _ => ?_
  refine (discreet_ofExcept _).bind fun status => ?_
  refine (discreet_note ?_).bind fun _ => discreet_pure status
  unfold exitMessage
  split
  · exact .inl rfl
  · exact .inr rfl

variable (table : Launcher.Table) (turns : Launch → List Channel)

/-- A launch is noticed, and then the lines that the program prints on the console. -/
theorem conduct_tells (launch : Launch) (output error : Sink) (w : World) :
    (conduct (.ofTable table turns) launch output error).Tells w
      (· = .launched launch ::
        (output.shown (table.lines launch.executable .output)).map .printed) := by
  have hconduct := perform_conduct (.ofTable table turns) launch output error w
  rcases hchild : table.behaviour launch.executable with failure | child
  · have hstart := Launcher.start_ofTable_of_error turns w.tree
      (output.place?.toList ++ error.place?.toList) hchild
    simp only [hstart] at hconduct
    have hlines : table.lines launch.executable .output = [] := by
      simp only [Launcher.Table.lines, hchild]
    have hshown : output.shown (table.lines launch.executable .output) = [] := by
      rw [hlines]
      cases output <;> rfl
    refine ⟨_, _, _, hconduct, ?_⟩
    rw [hshown]
    rfl
  · have hstart := Launcher.start_ofTable_of_ok turns w.tree
      (output.place?.toList ++ error.place?.toList) hchild
    simp only [hstart, perform_drain_eq, World.after_after] at hconduct
    have hlines : table.lines launch.executable .output = child.output.lines := by
      simp only [Launcher.Table.lines, hchild]
    refine ⟨_, _, _, hconduct, ?_⟩
    simp only [notable_append, Draining.notable_complete, hlines]
    exact congrArg (Event.launched launch :: ·) (List.append_nil _)

/-! ## A whole run -/

variable (line : CommandLine) {state : State} (name executable : Text) (arguments : List Text)

/-- The lines of a program that show on the console: all of its output, unless that is
redirected. -/
def shownLines (executable : Text) : List Text :=
  if line.output = none then table.lines executable .output else []

/-- **A program that was found** is noticed by its launch and by the lines that are not
redirected, unless a target does not open. -/
theorem runFound_tells (w : World) :
    (runFound host (.ofTable table turns) line state name arguments executable).Tells w
      fun told => told = [] ∨
        told = .launched (launchOf state (name :: arguments) executable) ::
          (shownLines table line executable).map .printed := by
  refine (discreet_ofTarget _ _).behind (.inl rfl) fun output w₁ houtput => ?_
  refine (discreet_ofTarget _ _).attempt.behind (.inl rfl) fun opened w₂ _ => ?_
  cases opened with
  | error fault =>
    exact ((discreet_close output _).bind fun _ => discreet_ofExcept _).tells (.inl rfl) w₂
  | ok error =>
    let launch := launchOf state (name :: arguments) executable
    have hshown := Sink.shown_of_ofTarget houtput (table.lines executable .output)
    have hconduct : (conduct (.ofTable table turns) launch output error).Tells w₂
        fun told => told = [] ∨ told = .launched launch ::
          (shownLines table line executable).map .printed := by
      refine (conduct_tells table turns launch output error w₂).mono fun told htold => .inr ?_
      rw [htold, shownLines, ← hshown]
      rfl
    exact hconduct.bind fun ended => discreet_afterwards name ended.1 ended.2.1 ended.2.2

end Program
end LineShell
