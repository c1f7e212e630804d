/-
# LineShell.Proofs.Action.Leaves -- what an action leaves behind

A claim about files is about two things that an action leaves: the tree, and the handles
that it opened. `Leaves` says that they are as described, whatever result the action comes
to. An action is `Still` if it leaves the tree alone and opens nothing. Still actions may
come before, behind and in place of a failure without changing what is left.
-/

import LineShell.Proofs.Action.Perform

namespace LineShell
namespace Action

variable {α β : Type}

/-- **Leaves** — the tree after the action and the handles that it opened are as described,
also when it fails. -/
def Leaves (x : Action α) (w : World) (P : Tree → List Handle → Prop) : Prop :=
  ∃ result t events, x.perform w = (result, w.after t events) ∧ P t (events.filterMap Event.opened?)

/-- **Still** — the action leaves the tree alone and opens nothing. -/
def Still (x : Action α) : Prop := ∀ w, x.Leaves w fun t handles => t = w.tree ∧ handles = []

/-! ## Still actions -/

theorem still_of_perform {x : Action α} {result : Except Fault α} (events : World → List Event)
    (h : ∀ w, x.perform w = (result, w.after w.tree (events w)))
    (hopened : ∀ w, (events w).filterMap Event.opened? = []) : x.Still :=
  fun w => ⟨result, w.tree, events w, h w, rfl, hopened w⟩

theorem still_pure (a : α) : Still (pure a) :=
  still_of_perform (fun _ => []) (fun w => by rw [World.after_self]; rfl) fun _ => rfl

theorem still_emit {event : Event} (h : event.opened? = none) : Still (emit event) :=
  still_of_perform (fun _ => [event]) (fun _ => rfl) fun _ => by rw [List.filterMap_cons, h]; rfl

theorem still_printLine (line : Text) : Still (printLine line) := still_emit rfl

theorem still_log (level : Level) (text : Text) : Still (log level text) :=
  still_of_perform _ (perform_log level text) fun _ => (quiet_eventsAt _ _).opened?

/-! ## Putting actions together -/

variable {P Q : Tree → List Handle → Prop} {w : World}

theorem Leaves.mono {x : Action α} (h : x.Leaves w P)
    (hsub : ∀ t handles, P t handles → Q t handles) : x.Leaves w Q := by
  obtain ⟨result, t, events, hx, hP⟩ := h
  exact ⟨result, t, events, hx, hsub _ _ hP⟩

theorem Still.leaves {x : Action α} (h : x.Still) (hP : P w.tree []) : x.Leaves w P := by
  obtain ⟨result, t, events, hx, rfl, hopened⟩ := h w
  exact ⟨result, w.tree, events, hx, hopened ▸ hP⟩

/-- What comes behind and is still changes nothing. -/
theorem Leaves.bind {x : Action α} {f : α → Action β} (h : x.Leaves w P)
    (hf : ∀ a, (f a).Still) : (x >>= f).Leaves w P := by
  obtain ⟨result, t, events, hx, hP⟩ := h
  cases result with
  | error fault => exact ⟨.error fault, t, events, by rw [perform_bind, hx], hP⟩
  | ok a =>
    -- the second action starts in the tree that the first one left, and keeps it
    obtain ⟨result', t', events', hfa, ht, hopened⟩ := hf a (w.after t events)
    obtain rfl : t = t' := ht.symm
    refine ⟨result', t, events ++ events', ?_, ?_⟩
    · rw [perform_bind, hx]
      exact hfa.trans (by rw [World.after_after])
    · rw [List.filterMap_append, hopened, List.append_nil]
      exact hP

/-- What comes before and is still changes nothing. -/
theorem Leaves.behind {x : Action α} {f : α → Action β} {a : α} {events : List Event}
    (hx : x.perform w = (.ok a, w.after w.tree events))
    (hopened : events.filterMap Event.opened? = [])
    (h : (f a).Leaves (w.after w.tree events) P) : (x >>= f).Leaves w P := by
  obtain ⟨result, t, events', hfa, hP⟩ := h
  refine ⟨result, t, events ++ events', ?_, ?_⟩
  · rw [perform_bind, hx]
    exact hfa.trans (by rw [World.after_after])
  · rw [List.filterMap_append, hopened, List.nil_append]
    exact hP

/-- Nothing comes behind what fails. -/
theorem leaves_of_failed {x : Action α} {f : α → Action β} {fault : Fault} {events : List Event}
    (hx : x.perform w = (.error fault, w.after w.tree events))
    (hopened : events.filterMap Event.opened? = []) (hP : P w.tree []) :
    (x >>= f).Leaves w P :=
  ⟨.error fault, w.tree, events, by rw [perform_bind, hx], hopened.symm ▸ hP⟩

theorem Still.bind {x : Action α} {f : α → Action β} (hx : x.Still) (hf : ∀ a, (f a).Still) :
    (x >>= f).Still :=
  fun w => (hx w).bind hf

/-- Dealing with a failure changes nothing if it is still. -/
theorem Leaves.tryCatch {x : Action α} {handle : Fault → Action α} (h : x.Leaves w P)
    (hf : ∀ fault, (handle fault).Still) : (tryCatch x handle).Leaves w P := by
  obtain ⟨result, t, events, hx, hP⟩ := h
  cases result with
  | ok a => exact ⟨.ok a, t, events, by rw [perform_tryCatch, hx], hP⟩
  | error fault =>
    obtain ⟨result', t', events', hhandle, ht, hopened⟩ := hf fault (w.after t events)
    obtain rfl : t = t' := ht.symm
    refine ⟨result', t, events ++ events', ?_, ?_⟩
    · rw [perform_tryCatch, hx]
      exact hhandle.trans (by rw [World.after_after])
    · rw [List.filterMap_append, hopened, List.append_nil]
      exact hP

end Action
end LineShell
