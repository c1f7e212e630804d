/-
# LineShell.Proofs.Session.Statuses -- exit statuses go no further than messages

A program that ends has an exit status, and the shell notes it. Nothing else comes of it: if the
programs had other statuses, and did all else as they do, a line would come to the same state or
fault, to the same tree, and to the same events but for the messages
(`Session.mirrors_runLine`).

Two actions are compared at once. They mirror each other if, begun in worlds that are alike but
for messages, they come to results that belong together in worlds that are alike again. An action
that programs are not started in mirrors itself, since it is uniform; actions in turn mirror each
other if their parts do.
-/

import LineShell.Proofs.Session.Levels

namespace LineShell

/-- **Other statuses** — the launcher by which programs do the same but for their exit
statuses. -/
def Launcher.withStatuses (launcher : Launcher)
    (status : Tree → List Location → Launch → Int) : Launcher where
  announce := launcher.announce
  start tree busy launch := (launcher.start tree busy launch).map fun (child, after) =>
    ({ child with status := status tree busy launch }, after)
  turns := launcher.turns

/-! ## Worlds that are alike -/

/-- **Deeds** — the events that are no messages. -/
def deeds (events : List Event) : List Event := events.filter (·.logged?.isNone)

theorem deeds_append (first second : List Event) :
    deeds (first ++ second) = deeds first ++ deeds second := List.filter_append first second

theorem deeds_of_quiet {events : List Event} (h : Quiet events) : deeds events = [] := by
  apply List.filter_eq_nil_iff.mpr
  intro event he
  obtain ⟨m, rfl⟩ := h event he
  exact Bool.false_ne_true

/-- **Alike** — the worlds differ in messages at most. -/
structure World.IsAlike (w w' : World) : Prop where
  tree : w'.tree = w.tree
  limit : w'.limit = w.limit
  deeds : LineShell.deeds w'.events = LineShell.deeds w.events

theorem World.IsAlike.refl (w : World) : w.IsAlike w := ⟨rfl, rfl, rfl⟩

/-- Worlds stay alike if the same happens in both. -/
theorem World.IsAlike.after {w w' : World} (h : w.IsAlike w') (t : Tree)
    {events events' : List Event} (hevents : LineShell.deeds events' = LineShell.deeds events) :
    (w.after t events).IsAlike (w'.after t events') where
  tree := rfl
  limit := h.limit
  deeds := by
    rw [World.events_after, World.events_after, deeds_append, deeds_append, h.deeds, hevents]

namespace Action

/-! ## Actions that mirror each other -/

section Mirrors

variable {α α' β β' : Type}

/-- **Agree** — both actions came to results that belong together, or to one fault, in worlds
that are alike. -/
inductive Agree (R : α → α' → Prop) : Except Fault α × World → Except Fault α' × World → Prop
  | ok {a : α} {a' : α'} {w w' : World} : R a a' → w.IsAlike w' → Agree R (.ok a, w) (.ok a', w')
  | error (fault : Fault) {w w' : World} :
    w.IsAlike w' → Agree R (.error fault, w) (.error fault, w')

/-- **Mirrors** — what one action comes to agrees with what the other one does, wherever they
are begun alike. -/
def Mirrors (R : α → α' → Prop) (x : Action α) (y : Action α') : Prop :=
  ∀ w w' : World, w.IsAlike w' → Agree R (x.perform w) (y.perform w')

theorem Mirrors.mono {R S : α → α' → Prop} {x : Action α} {y : Action α'} (h : Mirrors R x y)
    (hRS : ∀ a a', R a a' → S a a') : Mirrors S x y := by
  intro w w' hw
  generalize x.perform w = first, y.perform w' = second, h w w' hw = hagree
  cases hagree with
  | ok hR halike => exact .ok (hRS _ _ hR) halike
  | error fault halike => exact .error fault halike

theorem mirrors_pure {R : α → α' → Prop} {a : α} {a' : α'} (h : R a a') :
    Mirrors R (pure a) (pure a') := fun _ _ hw => .ok h hw

/-- A uniform action mirrors itself. -/
theorem Uniform.mirrors {x : Action α} (h : x.Uniform) : Mirrors Eq x x := by
  intro w w' hw
  obtain ⟨result, t, events, hperform⟩ := h w.tree
  rw [hperform w rfl, hperform w' hw.tree, hw.limit]
  have halike : (w.after t (events.filter (·.showsAt w.limit))).IsAlike
      (w'.after t (events.filter (·.showsAt w.limit))) := hw.after t rfl
  cases result with
  | ok a => exact .ok rfl halike
  | error fault => exact .error fault halike

/-- Messages make no difference. -/
theorem mirrors_note (m m' : Message) : Mirrors Eq (note m) (note m') := by
  intro w w' hw
  rw [perform_note, perform_note, hw.tree]
  apply Agree.ok rfl
  apply hw.after
  rw [deeds_of_quiet (quiet_eventsAt _ _), deeds_of_quiet (quiet_eventsAt _ _)]

theorem Mirrors.bind {R : α → α' → Prop} {S : β → β' → Prop} {x : Action α} {y : Action α'}
    {f : α → Action β} {g : α' → Action β'} (h : Mirrors R x y)
    (hnext : ∀ a a', R a a' → Mirrors S (f a) (g a')) : Mirrors S (x >>= f) (y >>= g) := by
  intro w w' hw
  rw [perform_bind, perform_bind]
  generalize x.perform w = first, y.perform w' = second, h w w' hw = hagree
  cases hagree with
  | ok hR halike => exact hnext _ _ hR _ _ halike
  | error fault halike => exact .error fault halike

theorem Mirrors.tryCatch {R : α → α' → Prop} {x : Action α} {y : Action α'}
    {handle : Fault → Action α} {handle' : Fault → Action α'} (h : Mirrors R x y)
    (hhandle : ∀ fault, Mirrors R (handle fault) (handle' fault)) :
    Mirrors R (tryCatch x handle) (tryCatch y handle') := by
  intro w w' hw
  rw [perform_tryCatch, perform_tryCatch]
  generalize x.perform w = first, y.perform w' = second, h w w' hw = hagree
  cases hagree with
  | ok hR halike => exact .ok hR halike
  | error fault halike => exact hhandle fault _ _ halike

end Mirrors
end Action

open LineShell.Action

/-! ## Programs -/

/-- **Ends alike** — both have a result, or both have one fault. -/
def EndsAlike (first second : Except Fault Int) : Prop :=
  second.map (fun _ => ()) = first.map fun _ => ()

theorem EndsAlike.mirrors_ofExcept {first second : Except Fault Int} (h : EndsAlike first second) :
    Mirrors (fun _ _ => True) (Action.ofExcept first) (Action.ofExcept second) := by
  intro w w' hw
  rw [perform_ofExcept, perform_ofExcept]
  rcases first with fault | status <;> rcases second with fault' | status'
  · obtain rfl := Except.error.inj h
    exact .error fault' hw
  · exact nomatch h
  · exact nomatch h
  · exact .ok trivial hw

/-- Closing a sink can turn any end into a fault, and the same one. -/
theorem EndsAlike.settled {first second : Except Fault Int} (h : EndsAlike first second)
    (sink : Sink) : EndsAlike (sink.settled first) (sink.settled second) := by
  cases sink with
  | console => exact h
  | target writer =>
    show EndsAlike (writer.settled first) (writer.settled second)
    unfold Writer.settled
    split
    · rfl
    · exact h

theorem EndsAlike.mirrors_close {first second : Except Fault Int} (h : EndsAlike first second)
    (sink : Sink) : Mirrors EndsAlike (sink.close first) (sink.close second) := by
  intro w w' hw
  rw [Sink.perform_close, Sink.perform_close, hw.tree]
  exact .ok (h.settled sink) (hw.after _ rfl)

section Statuses

variable (host : Host) (launcher : Launcher) (status : Tree → List Location → Launch → Int)

namespace Program

/-- **Conducted alike** — the sinks are the same, and both have a result or one fault. -/
def ConductedAlike (first second : Sink × Sink × Except Fault Int) : Prop :=
  second.1 = first.1 ∧ second.2.1 = first.2.1 ∧ EndsAlike first.2.2 second.2.2

theorem mirrors_drain (turns : List Channel) (child : Child) (other : Int) (output error : Sink) :
    Mirrors ConductedAlike (drain turns child output error)
      (drain turns { child with status := other } output error) := by
  intro w w' hw
  rw [perform_drain_eq, perform_drain_eq, hw.tree]
  refine .ok ⟨rfl, rfl, ?_⟩ (hw.after _ rfl)
  -- the drains do not look at the status
  show EndsAlike (Except.map _ ((Draining.start child output error).complete turns).1.outcome)
    (Except.map _ ((Draining.start child output error).complete turns).1.outcome)
  cases ((Draining.start child output error).complete turns).1.outcome <;> rfl

theorem mirrors_conduct (launch : Launch) (output error : Sink) :
    Mirrors ConductedAlike (conduct launcher launch output error)
      (conduct (launcher.withStatuses status) launch output error) := by
  intro w w' hw
  rw [perform_conduct, perform_conduct, hw.tree, hw.limit]
  simp only [Launcher.withStatuses]
  rcases launcher.start w.tree (output.place?.toList ++ error.place?.toList) launch with
    fault | ⟨child, t⟩
  · exact .ok ⟨rfl, rfl, rfl⟩ (hw.after _ rfl)
  · exact mirrors_drain _ child _ output error _ _ (hw.after t rfl)

theorem mirrors_runFound (line : CommandLine) (state : State) (name : Text)
    (arguments : List Text) (executable : Text) :
    Mirrors (fun _ _ => True) (runFound host launcher line state name arguments executable)
      (runFound host (launcher.withStatuses status) line state name arguments executable) := by
  have huniform := compositional_uniform launcher
  refine .bind (huniform.ofTarget host state.directory line.output).mirrors ?_
  rintro output _ rfl
  refine .bind (huniform.attempt (huniform.ofTarget host state.directory line.error)).mirrors ?_
  rintro (fault | error) _ rfl
  · refine .bind (huniform.close output _).mirrors ?_
    rintro outcome _ rfl
    exact (huniform.ofExcept outcome).mirrors.mono fun _ _ _ => trivial
  · refine .bind (mirrors_conduct launcher status _ output error) ?_
    rintro ⟨output, error, outcome⟩ ⟨output', error', outcome'⟩ ⟨houtput, herror, h⟩
    obtain ⟨rfl, rfl⟩ : output' = output ∧ error' = error := ⟨houtput, herror⟩
    refine .bind (h.mirrors_close error') fun _ _ h => ?_
    refine .bind (h.mirrors_close output') fun _ _ h => ?_
    refine .bind h.mirrors_ofExcept fun first second _ => ?_
    -- the statuses are noted, and they may differ
    exact .bind (mirrors_note _ _) fun _ _ _ => mirrors_pure trivial

theorem mirrors_run (line : CommandLine) (state : State) :
    Mirrors (fun _ _ => True) (run host launcher line state)
      (run host (launcher.withStatuses status) line state) := by
  have huniform := compositional_uniform launcher
  unfold run
  split
  · exact mirrors_pure trivial
  · refine .bind (huniform.find _ _ _).mirrors ?_
    rintro found _ rfl
    cases found with
    | none => exact .bind (huniform.printLine _).mirrors fun _ _ _ => mirrors_pure trivial
    | some executable =>
      exact .bind (mirrors_runFound host launcher status _ _ _ _ _) fun _ _ _ =>
        mirrors_pure trivial

end Program

/-! ## Lines -/

/-- Only programs are started by the launcher, and of one that was run nothing is kept. -/
theorem Builtin.mirrors_dispatch (line : CommandLine) (state : State) :
    Mirrors Eq (dispatch host launcher line state)
      (dispatch host (launcher.withStatuses status) line state) := by
  by_cases hverb : Verb.ofCommand line.command = .program
  · unfold dispatch
    rw [hverb]
    exact .bind (Program.mirrors_run host launcher status line state) fun _ _ _ => mirrors_pure rfl
  · have hsame : dispatch host (launcher.withStatuses status) line state =
        dispatch host launcher line state := by
      unfold dispatch
      split
      case h_6 hprogram => exact absurd hprogram hverb
      all_goals rfl
    rw [hsame]
    exact ((compositional_uniform launcher).dispatch host line state).mirrors

/-- **A line** comes to the same with other statuses. -/
theorem Session.mirrors_runLine (line : Text) (state : State) :
    Mirrors Eq (runLine host launcher line state)
      (runLine host (launcher.withStatuses status) line state) := by
  have huniform := compositional_uniform launcher
  refine .bind (huniform.split line).mirrors ?_
  rintro parsed _ rfl
  split
  · exact mirrors_pure rfl
  · exact (Builtin.mirrors_dispatch host launcher status parsed state).tryCatch
      fun fault => (huniform.recover parsed state fault).mirrors

end Statuses
end LineShell
