/-
# LineShell.Proofs.Action.Notable -- what a user notices of an action

Much of what happens in a session goes by unnoticed: files are opened and closed, and
messages tell of the course of things. What is notable is a line on the output, the end of
the shell, the launch of a program, and a warning. `Tells` gives the notable events of an
action, and an action is `Discreet` if there are none, whatever becomes of it.

Opening and closing a target is discreet, and so are looking a program up and describing a
name. What an action tells that is put together from others is what they tell, in order.
-/

import LineShell.Proofs.Target.Redirected

namespace LineShell

/-- The event is a line on the output, the end of the shell, the launch of a program, or a
message that is more than information. -/
def Event.isNotable : Event → Bool
  | printed _ | wrote _ | exited _ | launched _ => true
  | logged m => m.level.verbosity ≤ Level.warning.verbosity
  | _ => false

/-- The warning that the event is, if it is one. -/
def Event.warned? : Event → Option Message
  | logged m => if m.level = .warning then some m else none
  | _ => none

/-- What is notable among some events. -/
def notable (events : List Event) : List Event := events.filter Event.isNotable

@[simp] theorem notable_nil : notable [] = [] := rfl

@[simp] theorem notable_append (first second : List Event) :
    notable (first ++ second) = notable first ++ notable second := List.filter_append ..

/-- A view that shows nothing but notable events need not look at the others. -/
theorem filterMap_notable {α : Type} {view : Event → Option α}
    (hview : ∀ event, event.isNotable = false → view event = none) (events : List Event) :
    (notable events).filterMap view = events.filterMap view := by
  induction events with
  | nil => rfl
  | cons event rest ih =>
    cases hevent : event.isNotable with
    | true => rw [notable, List.filter_cons_of_pos hevent, List.filterMap_cons, List.filterMap_cons,
        ← notable, ih]
    | false =>
      rw [notable, List.filter_cons_of_neg (by simp [hevent]), ← notable, ih,
        List.filterMap_cons_none (hview event hevent)]

/-- Messages that inform are not notable. -/
theorem notable_eventsAt {m : Message} (h : m.level = .debug ∨ m.level = .info) (limit : Level) :
    notable (m.eventsAt limit) = [] := by
  have hlevel : (Event.logged m).isNotable = false := by
    rcases h with h | h <;> rw [Event.isNotable, h] <;> decide
  unfold Message.eventsAt
  split
  · simp [notable, hlevel]
  · rfl

namespace Action

variable {α β : Type}

/-- **Tells** — the notable events of the action are as described, whatever its result is. -/
def Tells (x : Action α) (w : World) (P : List Event → Prop) : Prop :=
  ∃ result t events, x.perform w = (result, w.after t events) ∧ P (notable events)

/-- **Discreet** — nothing notable happens. -/
def Discreet (x : Action α) : Prop := ∀ w, x.Tells w (· = [])

theorem Tells.mono {x : Action α} {w : World} {P Q : List Event → Prop} (h : x.Tells w P)
    (hPQ : ∀ told, P told → Q told) : x.Tells w Q := by
  obtain ⟨result, t, events, hperform, hP⟩ := h
  exact ⟨result, t, events, hperform, hPQ _ hP⟩

theorem Discreet.tells {x : Action α} (h : x.Discreet) {P : List Event → Prop} (hP : P [])
    (w : World) : x.Tells w P :=
  (h w).mono fun _ htold => htold ▸ hP

/-! ## Basic actions -/

theorem discreet_of_perform {x : Action α} {result : World → Except Fault α}
    {after : World → Tree} {events : World → List Event}
    (h : ∀ w, x.perform w = (result w, w.after (after w) (events w)))
    (hevents : ∀ w, notable (events w) = []) : x.Discreet :=
  fun w => ⟨result w, after w, events w, h w, hevents w⟩

theorem discreet_pure (a : α) : Discreet (pure a) :=
  discreet_of_perform (fun w => by rw [World.after_self]; rfl) fun _ => notable_nil

theorem discreet_throw (fault : Fault) : Discreet (throw fault : Action α) :=
  discreet_of_perform (fun w => by rw [World.after_self]; rfl) fun _ => notable_nil

theorem discreet_tree : Discreet tree :=
  discreet_of_perform (fun w => by rw [World.after_self]; rfl) fun _ => notable_nil

theorem discreet_emit {event : Event} (h : event.isNotable = false) : Discreet (emit event) :=
  discreet_of_perform (perform_emit event) fun _ => by simp [notable, h]

theorem discreet_note {m : Message} (h : m.level = .debug ∨ m.level = .info) :
    Discreet (note m) :=
  discreet_of_perform (perform_note m) fun w => notable_eventsAt h w.limit

theorem discreet_debug (text : Text) : Discreet (log .debug text) := discreet_note (.inl rfl)

theorem discreet_onTree (x : TreeAction α) : Discreet (onTree x) :=
  discreet_of_perform (perform_onTree x) fun _ => notable_nil

theorem Discreet.attempt {x : Action α} (h : x.Discreet) : Discreet (attempt x) := by
  intro w
  obtain ⟨result, t, events, hperform, hevents⟩ := h w
  exact ⟨.ok result, t, events, by rw [perform_attempt, hperform], hevents⟩

theorem discreet_ofExcept (result : Except Fault α) : Discreet (ofExcept result) :=
  discreet_of_perform (fun w => by rw [World.after_self]; exact perform_ofExcept result w)
    fun _ => notable_nil

/-! ## Actions in turn -/

section Bind

variable {x : Action α} {f : α → Action β} {w : World} {P : List Event → Prop}

theorem Discreet.congr {y : Action α} (h : ∀ w, x.perform w = y.perform w) (hy : y.Discreet) :
    x.Discreet := by
  intro w
  obtain ⟨result, t, events, hperform, hevents⟩ := hy w
  exact ⟨result, t, events, (h w).trans hperform, hevents⟩

/-- What comes behind and is discreet adds nothing. -/
theorem Tells.bind (h : x.Tells w P) (hf : ∀ a, (f a).Discreet) : (x >>= f).Tells w P := by
  obtain ⟨result, t, events, hx, hP⟩ := h
  cases result with
  | error fault => exact ⟨.error fault, t, events, by rw [perform_bind, hx], hP⟩
  | ok a =>
    obtain ⟨result', t', events', hfa, hnil⟩ := hf a (w.after t events)
    refine ⟨result', t', events ++ events', ?_, ?_⟩
    · rw [perform_bind, hx]
      exact hfa.trans (by rw [World.after_after])
    · rwa [notable_append, hnil, List.append_nil]

/-- What comes before and is discreet adds nothing. -/
theorem Discreet.behind (hx : x.Discreet) (hnil : P [])
    (h : ∀ a w', x.perform w = (.ok a, w') → (f a).Tells w' P) : (x >>= f).Tells w P := by
  obtain ⟨result, t, events, hperform, hevents⟩ := hx w
  cases result with
  | error fault =>
    exact ⟨.error fault, t, events, by rw [perform_bind, hperform], hevents.symm ▸ hnil⟩
  | ok a =>
    obtain ⟨result', t', events', hfa, hP⟩ := h a _ hperform
    refine ⟨result', t', events ++ events', ?_, ?_⟩
    · rw [perform_bind, hperform]
      exact hfa.trans (by rw [World.after_after])
    · rwa [notable_append, hevents, List.nil_append]

theorem Discreet.bind (hx : x.Discreet) (hf : ∀ a, (f a).Discreet) : (x >>= f).Discreet :=
  fun w => (hx w).bind hf

end Bind

/-! ## Actions that fail -/

/-- **Unfailing** — the action always comes to a result. -/
def Unfailing (x : Action α) : Prop := ∀ w, ∃ a w', x.perform w = (.ok a, w')

theorem unfailing_pure (a : α) : Unfailing (pure a) := fun w => ⟨a, w, rfl⟩

theorem unfailing_emit (event : Event) : Unfailing (emit event) :=
  fun w => ⟨(), _, perform_emit event w⟩

theorem unfailing_note (m : Message) : Unfailing (note m) :=
  fun w => ⟨(), _, perform_note m w⟩

theorem Unfailing.bind {x : Action α} {f : α → Action β} (hx : x.Unfailing)
    (hf : ∀ a, (f a).Unfailing) : (x >>= f).Unfailing := by
  intro w
  obtain ⟨a, w', hperform⟩ := hx w
  obtain ⟨b, w'', hnext⟩ := hf a w'
  exact ⟨b, w'', by rw [perform_bind, hperform]; exact hnext⟩

theorem Unfailing.ne_error {x : Action α} (h : x.Unfailing) {w w' : World} {fault : Fault} :
    x.perform w ≠ (.error fault, w') := by
  intro hfail
  obtain ⟨a, w'', hperform⟩ := h w
  exact absurd (congrArg Prod.fst (hperform.symm.trans hfail)) (by simp)

/-- **Tells at failure** — if the action fails, its notable events are as described. -/
def TellsAtFailure (x : Action α) (w : World) (P : List Event → Prop) : Prop :=
  ∀ fault w', x.perform w = (.error fault, w') →
    ∃ t events, w' = w.after t events ∧ P (notable events)

section Failure

variable {x : Action α} {f : α → Action β} {w : World} {P : List Event → Prop}

theorem Unfailing.tellsAtFailure (h : x.Unfailing) : x.TellsAtFailure w P :=
  fun _ _ hfail => absurd hfail h.ne_error

/-- The notable events of an action tell of it also if it fails. -/
theorem Tells.tellsAtFailure (h : x.Tells w P) : x.TellsAtFailure w P := by
  intro fault w' hfail
  obtain ⟨result, t, events, hperform, hP⟩ := h
  exact ⟨t, events, (Prod.mk.inj (hfail.symm.trans hperform)).2, hP⟩

/-- What cannot fail adds nothing to a failure. -/
theorem TellsAtFailure.bind (h : x.TellsAtFailure w P) (hf : ∀ a, (f a).Unfailing) :
    (x >>= f).TellsAtFailure w P := by
  intro fault w' hfail
  rcases perform_bind_eq_error_iff.mp hfail with hx | ⟨a, w₁, -, hnext⟩
  · exact h fault w' hx
  · exact absurd hnext (hf a).ne_error

/-- What comes before a failure and is discreet adds nothing. -/
theorem Discreet.behind_atFailure (hx : x.Discreet) (hnil : P [])
    (h : ∀ a w', x.perform w = (.ok a, w') → (f a).TellsAtFailure w' P) :
    (x >>= f).TellsAtFailure w P := by
  intro fault w' hfail
  obtain ⟨result, t, events, hperform, hevents⟩ := hx w
  rw [perform_bind, hperform] at hfail
  cases result with
  | error fault' =>
    exact ⟨t, events, (Prod.mk.inj hfail).2.symm, hevents.symm ▸ hnil⟩
  | ok a =>
    obtain ⟨t', events', rfl, hP⟩ := h a _ hperform fault w' hfail
    refine ⟨t', events ++ events', World.after_after .., ?_⟩
    rwa [notable_append, hevents, List.nil_append]

end Failure

/-- The notable events of an action that was performed. -/
theorem Tells.of_perform {x : Action α} {w : World} {P : List Event → Prop} (h : x.Tells w P)
    {result : Except Fault α} {w' : World} (hx : x.perform w = (result, w')) :
    ∃ t events, w' = w.after t events ∧ P (notable events) := by
  obtain ⟨result', t, events, hx', hP⟩ := h
  exact ⟨t, events, (Prod.mk.inj (hx.symm.trans hx')).2, hP⟩

end Action

/-! ## Targets -/

namespace Target

open LineShell.Action

theorem discreet_openWriter (host : Host) (path directory : Text) :
    Discreet (openWriter host path directory) := by
  refine Discreet.congr (perform_openWriter host path directory) ?_
  refine (discreet_onTree _).bind fun _ => ?_
  refine (discreet_note (.inl rfl)).bind fun _ => ?_
  refine (discreet_onTree _).bind fun _ => ?_
  exact (discreet_emit rfl).bind fun _ => discreet_pure _

theorem discreet_closeWriter {α : Type} (writer : Writer) (outcome : Except Fault α) :
    Discreet (closeWriter writer outcome) :=
  discreet_of_perform (perform_closeWriter writer outcome) fun _ => rfl

theorem discreet_fill (host : Host) (path directory text : Text) :
    Discreet (fill host path directory text) :=
  (discreet_openWriter host path directory).bind fun _ =>
    (discreet_closeWriter _ _).bind fun _ => discreet_ofExcept _

theorem discreet_touch (host : Host) (path directory : Text) :
    Discreet (touch host path directory) :=
  (discreet_openWriter host path directory).bind fun _ =>
    (discreet_closeWriter _ _).bind fun _ => discreet_ofExcept _

end Target
end LineShell
