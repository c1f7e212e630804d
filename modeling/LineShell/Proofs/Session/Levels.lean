/-
# LineShell.Proofs.Session.Levels -- a log level only drops messages

What a session does is the same at every log level. The level decides which messages are
printed, and nothing else depends on it (`level_only_drops`): two runs of a session at any
two levels agree in each answer but for the messages, and the messages at the less verbose
level are those at the more verbose one that it admits.

One run is compared with all the others at once. An action is `Uniform` if it comes to one
result, one tree and one list of events, of which a level drops the messages that it does
not admit. That is compositional, so every step has it, and a session of many steps too
(`exists_answers`).
-/

import LineShell.Launcher.Table
import LineShell.Proofs.Session.Compositional

namespace LineShell

/-- The event shows at a log level: a message does if the level admits it, and all else
does. -/
def Event.showsAt (limit : Level) : Event → Bool
  | logged m => limit.admits m.level
  | _ => true

theorem Message.eventsAt_eq_filter (limit : Level) (m : Message) :
    m.eventsAt limit = [Event.logged m].filter (·.showsAt limit) := by
  cases h : limit.admits m.level <;> simp [eventsAt, Event.showsAt, h]

/-- What is no message shows at every level. -/
theorem filter_showsAt_eq_self {events : List Event} (h : ∀ event ∈ events, event.logged? = none)
    (limit : Level) : events.filter (·.showsAt limit) = events := by
  rw [List.filter_eq_self]
  intro event he
  have hnone := h event he
  cases event <;> simp_all [Event.showsAt, Event.logged?]

/-! ## Uniform actions -/

namespace Action

variable {α β : Type}

/-- **Uniform** — the action comes to one result and one tree, and the same things happen,
at every log level; messages that the level does not admit are dropped. -/
def Uniform (x : Action α) : Prop :=
  ∀ t, ∃ (result : Except Fault α) (t' : Tree) (events : List Event), ∀ w : World, w.tree = t →
    x.perform w = (result, w.after t' (events.filter (·.showsAt w.limit)))

theorem uniform_of_perform {x : Action α} (result : Tree → Except Fault α) (after : Tree → Tree)
    (events : Tree → List Event)
    (h : ∀ w, x.perform w = (result w.tree, w.after (after w.tree)
      ((events w.tree).filter (·.showsAt w.limit)))) : x.Uniform :=
  fun t => ⟨result t, after t, events t, fun w hw => hw ▸ h w⟩

theorem Uniform.congr {x y : Action α} (h : ∀ w, x.perform w = y.perform w) (hy : y.Uniform) :
    x.Uniform := by
  intro t
  obtain ⟨result, t', events, hperform⟩ := hy t
  exact ⟨result, t', events, fun w hw => (h w).trans (hperform w hw)⟩

/-- What a uniform action comes to depends on nothing but the tree. -/
theorem Uniform.result_eq {x : Action α} (h : x.Uniform) {w w' : World} (htree : w'.tree = w.tree) :
    (x.perform w').1 = (x.perform w).1 := by
  obtain ⟨result, t', events, hperform⟩ := h w.tree
  rw [hperform w rfl, hperform w' htree]

/-- What happened before makes no difference. -/
theorem Uniform.perform_eq {x : Action α} (h : x.Uniform) {w w' : World}
    {result : Except Fault α} {t : Tree} {events : List Event}
    (hx : x.perform w = (result, w.after t events)) (htree : w'.tree = w.tree)
    (hlimit : w'.limit = w.limit) : x.perform w' = (result, w'.after t events) := by
  obtain ⟨result', t', all, hperform⟩ := h w.tree
  rw [hperform w rfl, Prod.mk.injEq] at hx
  obtain ⟨rfl, hworld⟩ := hx
  obtain ⟨rfl, rfl⟩ := World.after_inj hworld
  rw [hperform w' htree, hlimit]

theorem uniform_pure (a : α) : Uniform (pure a) :=
  uniform_of_perform (fun _ => .ok a) id (fun _ => []) fun w => by simp

theorem uniform_throw (fault : Fault) : Uniform (throw fault : Action α) :=
  uniform_of_perform (fun _ => .error fault) id (fun _ => []) fun w => by simp

theorem uniform_tree : Uniform tree :=
  uniform_of_perform .ok id (fun _ => []) fun w => by simp

theorem uniform_note (m : Message) : Uniform (note m) :=
  uniform_of_perform (fun _ => .ok ()) id (fun _ => [.logged m]) fun w => by
    rw [perform_note, m.eventsAt_eq_filter]
    rfl

theorem uniform_emit {event : Event} (h : event.logged? = none) : Uniform (emit event) :=
  uniform_of_perform (fun _ => .ok ()) id (fun _ => [event]) fun w => by
    rw [filter_showsAt_eq_self (by simpa using h)]
    rfl

theorem uniform_onTree (x : TreeAction α) : Uniform (onTree x) :=
  uniform_of_perform (fun t => (x.perform t).1) (fun t => (x.perform t).2) (fun _ => [])
    (perform_onTree x)

theorem Uniform.bind {x : Action α} {f : α → Action β} (hx : x.Uniform)
    (hf : ∀ a, (f a).Uniform) : Uniform (x >>= f) := by
  intro t
  obtain ⟨result, t', events, hfirst⟩ := hx t
  cases result with
  | error fault =>
    refine ⟨.error fault, t', events, fun w hw => ?_⟩
    rw [perform_bind, hfirst w hw]
  | ok a =>
    obtain ⟨result', t'', events', hsecond⟩ := hf a t'
    refine ⟨result', t'', events ++ events', fun w hw => ?_⟩
    rw [perform_bind, hfirst w hw, List.filter_append]
    exact (hsecond _ rfl).trans (by rw [World.after_after, World.limit_after])

theorem Uniform.tryCatch {x : Action α} {handle : Fault → Action α} (hx : x.Uniform)
    (hf : ∀ fault, (handle fault).Uniform) : Uniform (tryCatch x handle) := by
  intro t
  obtain ⟨result, t', events, hfirst⟩ := hx t
  cases result with
  | ok a =>
    refine ⟨.ok a, t', events, fun w hw => ?_⟩
    rw [perform_tryCatch, hfirst w hw]
  | error fault =>
    obtain ⟨result', t'', events', hsecond⟩ := hf fault t'
    refine ⟨result', t'', events ++ events', fun w hw => ?_⟩
    rw [perform_tryCatch, hfirst w hw, List.filter_append]
    exact (hsecond _ rfl).trans (by rw [World.after_after, World.limit_after])

end Action

open LineShell.Action

theorem Target.uniform_openWriter (host : Host) (path directory : Text) :
    Uniform (openWriter host path directory) := by
  refine Uniform.congr (perform_openWriter host path directory) ?_
  refine .bind (uniform_onTree _) fun _ => .bind (uniform_note _) fun _ => ?_
  exact .bind (uniform_onTree _) fun _ => .bind (uniform_emit rfl) fun _ => uniform_pure _

theorem Target.uniform_closeWriter {α : Type} (writer : Writer) (outcome : Except Fault α) :
    Uniform (closeWriter writer outcome) :=
  uniform_of_perform (fun _ => .ok (writer.settled outcome)) writer.flushedTo
    (fun _ => [.closed writer.handle]) (perform_closeWriter writer outcome)

namespace Program

/-- Draining a program notes nothing. -/
theorem uniform_drain (turns : List Channel) (child : Child) (output error : Sink) :
    Uniform (drain turns child output error) := by
  let drained := (Draining.start child output error).complete turns
  have hquiet : ∀ event ∈ drained.2 ++ [.reaped], event.logged? = none := by
    intro event he
    rcases List.mem_append.mp he with he | he
    · have hstream := Draining.isFromStream_of_mem_run he
      cases event <;> simp_all [Event.isFromStream, Event.logged?]
    · obtain rfl := List.mem_singleton.mp he
      rfl
  let result : Except Fault (Sink × Sink × Except Fault Int) :=
    .ok (drained.1.output.sink, drained.1.error.sink, drained.1.outcome.map fun _ => child.status)
  refine uniform_of_perform (fun _ => result) id (fun _ => drained.2 ++ [.reaped]) fun w => ?_
  rw [filter_showsAt_eq_self hquiet]
  exact perform_drain_eq turns child output error w

theorem uniform_conduct (launcher : Launcher) (launch : Launch) (output error : Sink) :
    Uniform (conduct launcher launch output error) := by
  have hannounce : Uniform ((launcher.announce launch).forM note) := by
    induction launcher.announce launch with
    | nil => exact uniform_pure _
    | cons m rest ih => exact .bind (uniform_note m) fun _ => ih
  refine .bind hannounce fun _ => .bind (uniform_emit rfl) fun _ => .bind uniform_tree fun t => ?_
  split
  · exact uniform_pure _
  · exact .bind (uniform_onTree _) fun _ => uniform_drain _ _ _ _

end Program

theorem Action.compositional_uniform (launcher : Launcher) :
    Compositional launcher fun _ x => x.Uniform where
  pure := uniform_pure
  throw := uniform_throw
  bind := .bind
  tryCatch := .tryCatch
  emit := uniform_emit
  note := uniform_note
  tree := uniform_tree
  openWriter := Target.uniform_openWriter
  closeWriter := Target.uniform_closeWriter
  conduct := Program.uniform_conduct launcher

/-! ## Sessions -/

namespace Session

namespace Answer

/-- The messages of a step. -/
def messages (a : Answer) : List Message := a.events.filterMap Event.logged?

/-- What is printed of the messages. -/
def log (a : Answer) : Text := a.messages.flatMap Message.line

/-- All that a step did, apart from the messages. -/
def withoutMessages (a : Answer) : Answer :=
  { a with events := a.events.filter fun event => event.logged?.isNone }

/-- The answer that is given at a log level. -/
def shownAt (limit : Level) (a : Answer) : Answer :=
  { a with events := a.events.filter (·.showsAt limit) }

/-- What is no message shows at every level. -/
theorem withoutMessages_shownAt (limit : Level) (a : Answer) :
    (a.shownAt limit).withoutMessages = a.withoutMessages := by
  simp only [withoutMessages, shownAt, List.filter_filter, Answer.mk.injEq, true_and, and_true]
  congr 1
  funext event
  cases event <;> simp [Event.showsAt, Event.logged?]

/-- A level that admits less drops what another one has left. -/
theorem shownAt_shownAt {low high : Level} (h : high.admits low = true) (a : Answer) :
    (a.shownAt high).shownAt low = a.shownAt low := by
  simp only [shownAt, List.filter_filter, Answer.mk.injEq, true_and, and_true]
  congr 1
  funext event
  cases event with
  | logged m =>
    cases hlow : low.admits m.level with
    | false => simp [Event.showsAt, hlow]
    | true => simp [Event.showsAt, hlow, Level.admits_trans h hlow]
  | _ => rfl

/-- The messages that show are those that the level admits. -/
theorem messages_shownAt (limit : Level) (a : Answer) :
    (a.shownAt limit).messages = a.messages.filter (limit.admits ·.level) := by
  obtain ⟨report, events, t⟩ := a
  simp only [messages, shownAt]
  induction events with
  | nil => rfl
  | cons event rest ih =>
    cases event with
    | logged m =>
      have hshows : (Event.logged m).showsAt limit = limit.admits m.level := rfl
      have hmessage (events : List Event) : (Event.logged m :: events).filterMap Event.logged? =
          m :: events.filterMap Event.logged? := List.filterMap_cons_some rfl
      rw [List.filter_cons, hshows, hmessage, List.filter_cons, ← ih]
      split
      · exact hmessage _
      · rfl
    | _ => simpa [List.filterMap_cons, Event.showsAt, Event.logged?] using ih

end Answer

section Levels

variable (host : Host) (launcher : Launcher)

/-- **A step** gives one report, leaves one tree, and does the same things, at every level. -/
theorem step_uniform (state : State) (t : Tree) (s : Step) :
    ∃ (report : Report) (t' : Tree) (events : List Event), ∀ limit,
      step host launcher state s ⟨t, limit, []⟩ =
        (report, ⟨t', limit, events.filter (·.showsAt limit)⟩) := by
  have huniform := compositional_uniform launcher
  cases s with
  | line text =>
    obtain ⟨result, t', events, h⟩ := huniform.runLine host text state t
    cases result <;> exact ⟨_, t', events, fun limit => by
      simp only [step, h ⟨t, limit, []⟩ rfl, step.settle, World.after, List.nil_append]; rfl⟩
  | dispatch parsed =>
    obtain ⟨result, t', events, h⟩ := huniform.dispatch host parsed state t
    cases result <;> exact ⟨_, t', events, fun limit => by
      simp only [step, h ⟨t, limit, []⟩ rfl, step.settle, World.after, List.nil_append]; rfl⟩
  | execute parsed =>
    obtain ⟨result, t', events, h⟩ := huniform.run host parsed state t
    cases result <;> exact ⟨_, t', events, fun limit => by
      simp only [step, h ⟨t, limit, []⟩ rfl, World.after, List.nil_append]; rfl⟩

/-- The answers of a session are one list, as it shows at the level of the session. -/
theorem exists_answers (state : State) (t : Tree) (steps : List Step) :
    ∃ answers : List Answer, ∀ limit,
      run host launcher limit state t steps = answers.map (Answer.shownAt limit) := by
  induction steps generalizing state t with
  | nil => exact ⟨[], fun _ => rfl⟩
  | cons s rest ih =>
    obtain ⟨report, t', events, hstep⟩ := step_uniform host launcher state t s
    obtain ⟨answers, hrest⟩ := ih report.state t'
    refine ⟨⟨report, events, t'⟩ :: answers, fun limit => ?_⟩
    simp only [run, hstep, hrest, List.map_cons, Answer.shownAt]

/-- **Levels only drop messages** — at any two levels a session gives the same answers but
for the messages. At the less verbose one of two levels it gives those of the other without
the messages that the less verbose one does not admit, so that the log of each step is made
of the messages that are left. -/
theorem level_only_drops (state : State) (t : Tree) (steps : List Step) :
    let answers := fun limit => run host launcher limit state t steps
    (∀ first second : Level, (answers first).map Answer.withoutMessages =
      (answers second).map Answer.withoutMessages) ∧
    ∀ low high : Level, low.verbosity ≤ high.verbosity →
      answers low = (answers high).map (Answer.shownAt low) ∧
      (answers low).map Answer.log = (answers high).map fun a =>
        (a.messages.filter (low.admits ·.level)).flatMap Message.line := by
  intro answers
  obtain ⟨all, hall⟩ : ∃ all : List Answer, ∀ limit, answers limit =
      all.map (Answer.shownAt limit) := exists_answers host launcher state t steps
  have hdropped : ∀ limit, (answers limit).map Answer.withoutMessages =
      all.map Answer.withoutMessages := by
    intro limit
    rw [hall limit, List.map_map]
    exact List.map_congr_left fun a _ => Answer.withoutMessages_shownAt limit a
  refine ⟨fun first second => (hdropped first).trans (hdropped second).symm, ?_⟩
  intro low high hless
  have hlow : answers low = (answers high).map (Answer.shownAt low) := by
    rw [hall low, hall high, List.map_map]
    exact List.map_congr_left fun a _ =>
      (Answer.shownAt_shownAt (decide_eq_true hless) a).symm
  refine ⟨hlow, ?_⟩
  rw [hlow, List.map_map]
  exact List.map_congr_left fun a _ =>
    congrArg (List.flatMap Message.line) (Answer.messages_shownAt low a)

end Levels

/-- A line that is split, opens its target and is then reported as failed: the most verbose
level has three messages about it, and one of them is left among warnings. -/
theorem level_only_drops_failing_line :
    let answers := fun limit => run ⟨[], [], none, 990⟩ (.ofTable [] fun _ => []) limit ⟨"/", []⟩
      (Tree.empty.put ["dev"] .directory) [.line "echo a > dev"]
    answers .warning = (answers .debug).map (Answer.shownAt .warning) ∧
    (answers .debug).map (·.messages.length) = [3] ∧
    (answers .warning).map (·.messages.length) = [1] := by
  intro answers
  refine ⟨?_, by decide +kernel, by decide +kernel⟩
  exact ((level_only_drops _ _ _ _ _).2 .warning .debug (by decide)).1

end Session
end LineShell
