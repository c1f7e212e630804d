/-
# LineShell.Proofs.Action.Perform -- what performing an action comes to

An action is performed in a world and leaves a result and another world. The rules here
say so for each way of building an action, so that what a session does can be read off
without opening the monad: `perform_bind` for two actions in turn, `perform_tryCatch` for
a failure that is dealt with, and one equation for each action that does a single thing.

An action never takes back an event and never changes the log level. The world after it
is therefore told by a tree and by the events that are new (`World.after`). Operations on
the tree alone have rules of the same form (`TreeAction.perform`).
-/

import LineShell.Action

namespace LineShell

/-! ## Worlds -/

namespace World

/-- **After** — the world with another tree and further events. -/
def after (w : World) (t : Tree) (events : List Event) : World :=
  { w with tree := t, events := w.events ++ events }

variable (w : World) (t t' : Tree) (first second : List Event)

@[simp] theorem tree_after : (w.after t first).tree = t := rfl

@[simp] theorem limit_after : (w.after t first).limit = w.limit := rfl

@[simp] theorem events_after : (w.after t first).events = w.events ++ first := rfl

@[simp] theorem after_after :
    (w.after t first).after t' second = w.after t' (first ++ second) := by
  simp [after]

@[simp] theorem after_self : w.after w.tree [] = w := by
  simp [after]

theorem after_inj {w : World} {t t' : Tree} {first second : List Event}
    (h : w.after t first = w.after t' second) : t = t' ∧ first = second :=
  ⟨congrArg World.tree h, List.append_cancel_left (congrArg World.events h)⟩

theorem after_tree_eq : { w with tree := t } = w.after t [] := by
  simp [after]

end World

/-- What a message adds to the events: itself, unless the log level is less verbose. -/
def Message.eventsAt (limit : Level) (m : Message) : List Event :=
  if limit.admits m.level then [.logged m] else []

/-! ## What the events tell -/

namespace Event

def printed? : Event → Option Text
  | printed line => some line
  | _ => none

def complained? : Event → Option Text
  | complained line => some line
  | _ => none

def opened? : Event → Option Handle
  | opened handle => some handle
  | _ => none

def closed? : Event → Option Handle
  | closed handle => some handle
  | _ => none

def logged? : Event → Option Message
  | logged m => some m
  | _ => none

def launched? : Event → Option Launch
  | launched launch => some launch
  | _ => none

end Event

/-! ## Events that are lines -/

section Lines

variable (lines : List Text)

@[simp] theorem printed?_map_printed :
    (lines.map Event.printed).filterMap Event.printed? = lines := by
  simp [List.filterMap_map, Function.comp_def, Event.printed?]

@[simp] theorem printed?_map_complained :
    (lines.map Event.complained).filterMap Event.printed? = [] := by
  simp [List.filterMap_map, Function.comp_def, Event.printed?]

@[simp] theorem launched?_map_printed :
    (lines.map Event.printed).filterMap Event.launched? = [] := by
  simp [List.filterMap_map, Function.comp_def, Event.launched?]

@[simp] theorem complained?_map_printed :
    (lines.map Event.printed).filterMap Event.complained? = [] := by
  simp [List.filterMap_map, Function.comp_def, Event.complained?]

@[simp] theorem complained?_map_complained :
    (lines.map Event.complained).filterMap Event.complained? = lines := by
  simp [List.filterMap_map, Function.comp_def, Event.complained?]

/-- Lines are not counted as anything else. -/
theorem count_map_eq_zero {event : Event} {view : Text → Event} (h : ∀ line, view line ≠ event) :
    (lines.map view).count event = 0 := by
  rw [List.count_eq_zero, List.mem_map]
  rintro ⟨line, -, he⟩
  exact h line he

end Lines

/-! ## Quiet events -/

/-- **Quiet** — nothing but messages happened. -/
def Quiet (events : List Event) : Prop := ∀ event ∈ events, ∃ m, event = .logged m

theorem quiet_nil : Quiet [] := by simp [Quiet]

theorem quiet_eventsAt (limit : Level) (m : Message) : Quiet (m.eventsAt limit) := by
  unfold Message.eventsAt
  split
  · intro event he
    exact ⟨m, List.mem_singleton.mp he⟩
  · exact quiet_nil

namespace Quiet

variable {first second events : List Event}

theorem append (h : Quiet first) (h' : Quiet second) : Quiet (first ++ second) :=
  List.forall_mem_append.mpr ⟨h, h'⟩

/-- Messages do not show in a view that leaves them out. -/
theorem filterMap_eq_nil {α : Type} (h : Quiet events) {view : Event → Option α}
    (hview : ∀ m, view (.logged m) = none) : events.filterMap view = [] := by
  rw [List.filterMap_eq_nil_iff]
  intro event he
  obtain ⟨m, rfl⟩ := h event he
  exact hview m

theorem printed? (h : Quiet events) : events.filterMap Event.printed? = [] :=
  h.filterMap_eq_nil fun _ => rfl

theorem complained? (h : Quiet events) : events.filterMap Event.complained? = [] :=
  h.filterMap_eq_nil fun _ => rfl

theorem opened? (h : Quiet events) : events.filterMap Event.opened? = [] :=
  h.filterMap_eq_nil fun _ => rfl

end Quiet

/-! ## Performing operations on a tree -/

namespace TreeAction

variable {α β : Type}

/-- **Running** an operation on a tree: its result and the tree after it. -/
def perform (x : TreeAction α) (t : Tree) : Except Fault α × Tree := x.run.run t

@[simp] theorem perform_pure (a : α) (t : Tree) :
    (pure a : TreeAction α).perform t = (.ok a, t) := rfl

@[simp] theorem perform_throw (fault : Fault) (t : Tree) :
    (throw fault : TreeAction α).perform t = (.error fault, t) := rfl

@[simp] theorem perform_get (t : Tree) : (get : TreeAction Tree).perform t = (.ok t, t) := rfl

@[simp] theorem perform_set (t t' : Tree) :
    (set t' : TreeAction Unit).perform t = (.ok (), t') := rfl

@[simp] theorem perform_modify (f : Tree → Tree) (t : Tree) :
    (modify f : TreeAction Unit).perform t = (.ok (), f t) := rfl

theorem perform_bind (x : TreeAction α) (f : α → TreeAction β) (t : Tree) :
    (x >>= f).perform t =
      match x.perform t with
      | (.ok a, t') => (f a).perform t'
      | (.error fault, t') => (.error fault, t') := by
  rcases h : x.perform t with ⟨_ | a, after⟩
  all_goals
    simp only [perform] at h ⊢
    rw [ExceptT.run_bind, StateT.run_bind, h]
    rfl

theorem perform_tryCatch (x : TreeAction α) (handle : Fault → TreeAction α) (t : Tree) :
    (tryCatch x handle).perform t =
      match x.perform t with
      | (.ok a, t') => (.ok a, t')
      | (.error fault, t') => (handle fault).perform t' := by
  rcases h : x.perform t with ⟨_ | a, after⟩
  all_goals
    simp only [perform] at h ⊢
    rw [ExceptT.run_tryCatch, StateT.run_bind, h]
    rfl

/-- A condition under which an operation is given up before it begins. -/
theorem perform_guard {p : Prop} [Decidable p] (fault : Fault) (rest : PUnit → TreeAction α)
    (t : Tree) :
    (if p then throw fault >>= rest else rest ⟨⟩).perform t =
      if p then (.error fault, t) else (rest ⟨⟩).perform t := by
  split
  · rw [perform_bind, perform_throw]
  · rfl

end TreeAction

/-! ## Performing actions -/

namespace Action

variable {α β : Type}

@[simp] theorem perform_pure (a : α) (w : World) :
    (pure a : Action α).perform w = (.ok a, w) := rfl

@[simp] theorem perform_throw (fault : Fault) (w : World) :
    (throw fault : Action α).perform w = (.error fault, w) := rfl

theorem perform_bind (x : Action α) (f : α → Action β) (w : World) :
    (x >>= f).perform w =
      match x.perform w with
      | (.ok a, w') => (f a).perform w'
      | (.error fault, w') => (.error fault, w') := by
  rcases h : x.perform w with ⟨_ | a, after⟩
  all_goals
    simp only [perform] at h ⊢
    rw [ExceptT.run_bind, StateT.run_bind, h]
    rfl

/-- Two actions in turn come to a result if the first one does and the second one does behind
it. -/
theorem perform_bind_eq_ok_iff {x : Action α} {f : α → Action β} {b : β} {w w' : World} :
    (x >>= f).perform w = (.ok b, w') ↔
      ∃ a w₁, x.perform w = (.ok a, w₁) ∧ (f a).perform w₁ = (.ok b, w') := by
  rw [perform_bind]
  rcases x.perform w with ⟨fault | a, w₁⟩
  · simp
  · refine ⟨fun h => ⟨a, w₁, rfl, h⟩, ?_⟩
    rintro ⟨a', w₁', heq, h⟩
    obtain ⟨hresult, rfl⟩ := Prod.mk.inj heq
    obtain rfl := Except.ok.inj hresult
    exact h

/-- They fail if the first one does, or if the second one does behind it. -/
theorem perform_bind_eq_error_iff {x : Action α} {f : α → Action β} {fault : Fault}
    {w w' : World} :
    (x >>= f).perform w = (.error fault, w') ↔
      x.perform w = (.error fault, w') ∨
        ∃ a w₁, x.perform w = (.ok a, w₁) ∧ (f a).perform w₁ = (.error fault, w') := by
  rw [perform_bind]
  rcases x.perform w with ⟨fault' | a, w₁⟩
  · simp
  · refine ⟨fun h => .inr ⟨a, w₁, rfl, h⟩, ?_⟩
    rintro (hfail | ⟨a', w₁', heq, h⟩)
    · exact absurd (congrArg Prod.fst hfail) (by simp)
    · obtain ⟨hresult, rfl⟩ := Prod.mk.inj heq
      obtain rfl := Except.ok.inj hresult
      exact h

/-- An action whose result is put in the place of another. -/
theorem eq_of_perform_bind_pure {x : Action α} {a : α} {b c : β} {w w₁ w₂ : World}
    (hx : x.perform w = (.ok a, w₁)) (h : (x >>= fun _ => pure b).perform w = (.ok c, w₂)) :
    c = b ∧ w₂ = w₁ := by
  rw [perform_bind, hx] at h
  obtain ⟨hresult, rfl⟩ := Prod.mk.inj h
  exact ⟨(Except.ok.inj hresult).symm, rfl⟩

theorem perform_tryCatch (x : Action α) (handle : Fault → Action α) (w : World) :
    (tryCatch x handle).perform w =
      match x.perform w with
      | (.ok a, w') => (.ok a, w')
      | (.error fault, w') => (handle fault).perform w' := by
  rcases h : x.perform w with ⟨_ | a, after⟩
  all_goals
    simp only [perform] at h ⊢
    rw [ExceptT.run_tryCatch, StateT.run_bind, h]
    rfl

@[simp] theorem perform_get (w : World) : (get : Action World).perform w = (.ok w, w) := rfl

@[simp] theorem perform_set (w w' : World) : (set w' : Action Unit).perform w = (.ok (), w') :=
  rfl

@[simp] theorem perform_modify (f : World → World) (w : World) :
    (modify f : Action Unit).perform w = (.ok (), f w) := rfl

@[simp] theorem perform_emit (event : Event) (w : World) :
    (emit event).perform w = (.ok (), w.after w.tree [event]) := rfl

@[simp] theorem perform_emitAll (events : List Event) (w : World) :
    (emitAll events).perform w = (.ok (), w.after w.tree events) := rfl

@[simp] theorem perform_printLine (line : Text) (w : World) :
    (printLine line).perform w = (.ok (), w.after w.tree [.printed line]) := rfl

@[simp] theorem perform_tree (w : World) : tree.perform w = (.ok w.tree, w) := rfl

@[simp] theorem perform_note (m : Message) (w : World) :
    (note m).perform w = (.ok (), w.after w.tree (m.eventsAt w.limit)) := by
  unfold note Message.eventsAt
  rw [perform_bind, perform_get]
  dsimp only
  split
  · rfl
  · simp

@[simp] theorem perform_log (level : Level) (text : Text) (w : World) :
    (log level text).perform w =
      (.ok (), w.after w.tree (Message.eventsAt w.limit ⟨level, text⟩)) :=
  perform_note _ w

/-- An operation on the tree adds no event. -/
@[simp] theorem perform_onTree (x : TreeAction α) (w : World) :
    (onTree x).perform w = ((x.perform w.tree).1, w.after (x.perform w.tree).2 []) := by
  rw [onTree, perform_bind]
  rcases h : x.perform w.tree with ⟨_ | a, t⟩
  all_goals
    simp only [perform_get, TreeAction.perform] at h ⊢
    rw [h, perform_bind, perform_set, World.after_tree_eq]
    rfl

@[simp] theorem perform_ofExcept (result : Except Fault α) (w : World) :
    (ofExcept result).perform w = (result, w) := by
  cases result <;> rfl

/-- An attempt hands out what the action comes to. -/
@[simp] theorem perform_attempt (x : Action α) (w : World) :
    (attempt x).perform w = (.ok (x.perform w).1, (x.perform w).2) := by
  rw [attempt, perform_tryCatch, perform_bind]
  rcases x.perform w with ⟨_ | a, w'⟩ <;> rfl

end Action
end LineShell
