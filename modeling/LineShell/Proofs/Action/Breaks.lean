/-
# LineShell.Proofs.Action.Breaks -- failures that nobody reports

An action can end in two kinds of faults. A system error is what the shell expects, and a
line that ends in one is reported. All other faults, text that the system cannot take and
directories too deep to make, are passed on. `Breaks` says that an action ends in such a
fault, and in which.

An action that never does is `Sturdy`. What comes behind another action and is sturdy adds
nothing (`breaks_bind_iff`), and neither does dealing with system errors alone
(`breaks_tryCatch_iff`), so that for most of what a session does the question is one about a
few basic actions. The rules hold of operations on a tree and of actions alike, and are
stated for both at once.
-/

import LineShell.Proofs.Action.Perform

namespace LineShell

namespace Fault

/-- The fault is a system error. -/
def isSystem : Fault → Bool
  | system _ => true
  | _ => false

@[simp] theorem isSystem_system (error : SystemError) : (system error).isSystem = true := rfl

@[simp] theorem isSystem_ofCause (cause : Cause) : (ofCause cause).isSystem = true := rfl

theorem exists_system {fault : Fault} (h : fault.isSystem = true) :
    ∃ error, fault = .system error := by
  cases fault with
  | system error => exact ⟨error, rfl⟩
  | _ => exact absurd h (by simp [isSystem])

end Fault

/-! ## Breaking -/

section Breaks

variable {σ α β : Type}

/-- **Breaks** — the operation ends in a fault that is no system error. -/
def Breaks (x : ExceptT Fault (StateM σ) α) (s : σ) (fault : Fault) : Prop :=
  (x.run.run s).1 = .error fault ∧ fault.isSystem = false

/-- **Sturdy** — the operation never breaks. -/
def Sturdy (x : ExceptT Fault (StateM σ) α) : Prop := ∀ s fault, ¬ Breaks x s fault

variable {x : ExceptT Fault (StateM σ) α} {f : α → ExceptT Fault (StateM σ) β} {s s' : σ}
  {fault : Fault}

theorem breaks_iff_of_result {result : Except Fault α} (h : (x.run.run s).1 = result) :
    Breaks x s fault ↔ result = .error fault ∧ fault.isSystem = false := by
  rw [Breaks, h]

theorem breaks_iff_of_run {result : Except Fault α} (h : x.run.run s = (result, s')) :
    Breaks x s fault ↔ result = .error fault ∧ fault.isSystem = false :=
  breaks_iff_of_result (congrArg Prod.fst h)

theorem breaks_congr {y : ExceptT Fault (StateM σ) α} (h : x.run.run s = y.run.run s') :
    Breaks x s fault ↔ Breaks y s' fault := by
  rw [Breaks, Breaks, h]

theorem not_breaks_of_ok {a : α} (h : x.run.run s = (.ok a, s')) : ¬ Breaks x s fault := by
  rw [breaks_iff_of_run h]
  simp

theorem not_breaks_of_system {error : SystemError}
    (h : x.run.run s = (.error (.system error), s')) : ¬ Breaks x s fault := by
  rw [breaks_iff_of_run h]
  rintro ⟨herror, hfault⟩
  rw [← Except.error.inj herror] at hfault
  exact absurd hfault (by simp)

theorem sturdy_of_ok {result : σ → α} {after : σ → σ}
    (h : ∀ s, x.run.run s = (.ok (result s), after s)) : Sturdy x :=
  fun s _ => not_breaks_of_ok (h s)

theorem sturdy_pure (a : α) : Sturdy (pure a : ExceptT Fault (StateM σ) α) :=
  sturdy_of_ok fun _ => rfl

theorem sturdy_system (error : SystemError) :
    Sturdy (throw (.system error) : ExceptT Fault (StateM σ) α) :=
  fun _ _ => not_breaks_of_system rfl

/-! ## Operations in turn -/

/-- Behind an operation that comes to a result, the next one decides. -/
theorem breaks_bind_of_ok {a : α} (h : x.run.run s = (.ok a, s')) :
    Breaks (x >>= f) s fault ↔ Breaks (f a) s' fault := by
  rw [Breaks, ExceptT.run_bind, StateT.run_bind, h]
  rfl

/-- Behind an operation that fails there is nothing that could break. -/
theorem breaks_bind_of_error {fault' : Fault} (h : x.run.run s = (.error fault', s')) :
    Breaks (x >>= f) s fault ↔ Breaks x s fault := by
  rw [breaks_iff_of_run h, Breaks, ExceptT.run_bind, StateT.run_bind, h]
  exact and_congr_left fun _ => ⟨fun herror => congrArg _ (Except.error.inj herror),
    fun herror => congrArg _ (Except.error.inj herror)⟩

/-- What is sturdy adds nothing behind another operation. -/
theorem breaks_bind_iff (hf : ∀ a, Sturdy (f a)) :
    Breaks (x >>= f) s fault ↔ Breaks x s fault := by
  rcases h : x.run.run s with ⟨fault' | a, s'⟩
  · exact breaks_bind_of_error h
  · rw [breaks_bind_of_ok h]
    exact iff_of_false (hf a s' fault) (not_breaks_of_ok h)

theorem Sturdy.bind (hx : Sturdy x) (hf : ∀ a, Sturdy (f a)) : Sturdy (x >>= f) :=
  fun s fault h => hx s fault ((breaks_bind_iff hf).mp h)

/-- Dealing with system errors in a sturdy way changes nothing, as long as all other faults
are passed on. -/
theorem breaks_tryCatch_iff {handle : Fault → ExceptT Fault (StateM σ) α}
    (hsystem : ∀ error, Sturdy (handle (.system error)))
    (hother : ∀ fault, fault.isSystem = false → handle fault = throw fault) :
    Breaks (tryCatch x handle) s fault ↔ Breaks x s fault := by
  rcases h : x.run.run s with ⟨fault' | a, s'⟩
  · rcases hfault : fault'.isSystem with _ | _
    · have hpassed : (handle fault').run.run s' = (.error fault', s') := by
        rw [hother fault' hfault]
        rfl
      rw [breaks_iff_of_run h, Breaks, ExceptT.run_tryCatch, StateT.run_bind, h]
      exact and_congr_left fun _ => by
        show ((handle fault').run.run s').1 = _ ↔ _
        rw [hpassed]
    · obtain ⟨error, rfl⟩ := Fault.exists_system hfault
      refine iff_of_false ?_ (not_breaks_of_system h)
      rw [Breaks, ExceptT.run_tryCatch, StateT.run_bind, h]
      exact hsystem error s' fault
  · refine iff_of_false ?_ (not_breaks_of_ok h)
    rw [Breaks, ExceptT.run_tryCatch, StateT.run_bind, h]
    exact sturdy_pure a s' fault

end Breaks

/-! ## Basic actions -/

namespace Action

variable {α : Type} {w : World} {fault : Fault}

theorem sturdy_emit (event : Event) : Sturdy (emit event) := sturdy_of_ok fun _ => rfl

theorem sturdy_printLine (line : Text) : Sturdy (printLine line) := sturdy_emit _

theorem sturdy_note (m : Message) : Sturdy (note m) := sturdy_of_ok (perform_note m)

theorem sturdy_log (level : Level) (text : Text) : Sturdy (log level text) := sturdy_note _

/-- An operation on the tree breaks as it does without a session around it. -/
theorem breaks_onTree_iff {x : TreeAction α} :
    Breaks (onTree x) w fault ↔ Breaks x w.tree fault := by
  rw [breaks_iff_of_run (perform_onTree x w)]
  rfl

theorem sturdy_onTree {x : TreeAction α} (h : Sturdy x) : Sturdy (onTree x) :=
  fun w fault hbreaks => h w.tree fault (breaks_onTree_iff.mp hbreaks)

theorem breaks_ofExcept_iff {result : Except Fault α} :
    Breaks (ofExcept result) w fault ↔ result = .error fault ∧ fault.isSystem = false :=
  breaks_iff_of_run (perform_ofExcept result w)

end Action
end LineShell
