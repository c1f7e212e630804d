/-
# LineShell.Proofs.Target.Breaks -- targets that cannot be opened or reported

Writing to a redirect target can break at one point only, where the target is opened. What
comes behind that, writing and closing, fails with a system error or not at all
(`breaks_fill_iff`, `breaks_touch_iff`). A target without NUL characters breaks exactly if too
many of the directories above it are missing (`breaks_openWriter_iff`).
-/

import LineShell.Proofs.Program.Perform
import LineShell.Proofs.Tree.Nesting

namespace LineShell

/-- **Tame** — the outcome is a result or a system error. -/
def Tame {α : Type} (outcome : Except Fault α) : Prop :=
  ∀ fault, outcome = .error fault → fault.isSystem = true

theorem tame_ok {α : Type} (a : α) : Tame (.ok a : Except Fault α) := by
  intro fault h
  exact absurd h (by simp)

theorem tame_error {α : Type} {fault : Fault} (h : fault.isSystem = true) :
    Tame (.error fault : Except Fault α) := by
  intro other hother
  rwa [← Except.error.inj hother]

theorem Tame.map {α β : Type} {outcome : Except Fault α} (h : Tame outcome) (f : α → β) :
    Tame (outcome.map f) := by
  cases outcome with
  | ok a => exact tame_ok (f a)
  | error fault => exact tame_error (h fault rfl)

theorem Tame.sturdy_ofExcept {α : Type} {outcome : Except Fault α} (h : Tame outcome) :
    Sturdy (Action.ofExcept outcome) := by
  intro w fault hbreaks
  obtain ⟨hfault, hsystem⟩ := Action.breaks_ofExcept_iff.mp hbreaks
  rw [h fault hfault] at hsystem
  exact absurd hsystem (by simp)

/-- Closing a target keeps an outcome tame. -/
theorem Writer.tame_settled {α : Type} {outcome : Except Fault α} (h : Tame outcome)
    (writer : Writer) : Tame (writer.settled outcome) := by
  unfold settled
  split
  · exact tame_error rfl
  · exact h

theorem Sink.tame_settled {α : Type} {outcome : Except Fault α} (h : Tame outcome)
    (sink : Sink) : Tame (sink.settled outcome) := by
  cases sink with
  | console => exact h
  | target writer => exact writer.tame_settled h

namespace Target

variable {host : Host} {path directory : Text} {w : World} {fault : Fault}

/-! ## Opening -/

/-- **Too deep** — the directories right above the target are missing, more of them than can
be made at once. -/
def IsTooDeep (host : Host) (t : Tree) (path directory : Text) : Prop :=
  Path.directoryPart (resolve path directory) ≠ [] ∧
    t.LacksAbove host.directory host.nestingLimit (Path.directoryPart (resolve path directory))

/-- Where a target is too deep, nothing is made. -/
theorem IsTooDeep.perform_eq_error (h : IsTooDeep host w.tree path directory) :
    (openWriter host path directory).perform w = (.error .tooDeep, w) := by
  have habove : (makeAbove host (resolve path directory)).perform w.tree =
      (.error .tooDeep, w.tree) := by
    rw [makeAbove, if_pos h.1]
    exact Tree.perform_makeDirectoriesWithin_of_lacksAbove h.2
  rw [perform_openWriter, Action.perform_bind, Action.perform_onTree, habove]
  simp

theorem sturdy_openFile {base : Location} {target : Text} (h : '\x00' ∉ target) :
    Sturdy (Tree.openFile base target) := by
  intro t fault
  rcases Tree.openFile_cases base target t with ⟨fault', hfail, hsystem⟩ | ⟨device, hopen⟩ |
    ⟨place, executable, -, -, -, -, hopen⟩
  · obtain ⟨error, rfl⟩ := Fault.exists_system (hsystem h)
    exact not_breaks_of_system hfail
  · exact not_breaks_of_ok hopen
  · exact not_breaks_of_ok hopen

theorem breaks_makeAbove_iff {target : Text} {t : Tree} (h : '\x00' ∉ target) :
    Breaks (makeAbove host target) t fault ↔ fault = .tooDeep ∧ Path.directoryPart target ≠ [] ∧
      t.LacksAbove host.directory host.nestingLimit (Path.directoryPart target) := by
  unfold makeAbove
  split
  · rename_i habove
    rw [Tree.breaks_makeDirectoriesWithin_iff
      fun hmem => h (Path.mem_of_mem_directoryPart hmem)]
    exact and_congr_right fun _ => ⟨fun hlacks => ⟨habove, hlacks⟩, And.right⟩
  · rename_i habove
    exact iff_of_false (sturdy_pure () t fault) fun hlacks => habove hlacks.2.1

/-- **Opening a target** without NUL characters breaks exactly if it is too deep. -/
theorem breaks_openWriter_iff (hpath : '\x00' ∉ path) (hdirectory : '\x00' ∉ directory) :
    Breaks (openWriter host path directory) w fault ↔
      fault = .tooDeep ∧ IsTooDeep host w.tree path directory := by
  have hnul : '\x00' ∉ resolve path directory := Path.nul_not_mem_join hdirectory hpath
  rw [breaks_congr (perform_openWriter host path directory w), breaks_bind_iff,
    Action.breaks_onTree_iff, breaks_makeAbove_iff hnul]
  · rfl
  · -- once the directories are there, the file opens or fails with a system error
    intro _
    refine (Action.sturdy_note _).bind fun _ => ?_
    refine (Action.sturdy_onTree (sturdy_openFile hnul)).bind fun handle => ?_
    exact (Action.sturdy_emit _).bind fun _ => sturdy_pure _

/-! ## Writing and closing -/

/-- Closing a target after tame work is tame. -/
theorem sturdy_closeWriter_ofExcept {α : Type} {outcome : Except Fault α} (h : Tame outcome)
    (writer : Writer) : Sturdy (closeWriter writer outcome >>= Action.ofExcept) := by
  intro w fault
  rw [breaks_bind_of_ok (perform_closeWriter writer outcome w)]
  exact (writer.tame_settled h).sturdy_ofExcept _ fault

theorem breaks_fill_iff {text : Text} :
    Breaks (fill host path directory text) w fault ↔
      Breaks (openWriter host path directory) w fault := by
  refine breaks_bind_iff fun writer => ?_
  rcases writer.write text with ⟨next, done⟩
  refine sturdy_closeWriter_ofExcept ?_ next
  cases done with
  | true => exact tame_ok ()
  | false => exact tame_error (Fault.isSystem_ofCause .noSpace)

theorem breaks_touch_iff :
    Breaks (touch host path directory) w fault ↔
      Breaks (openWriter host path directory) w fault :=
  breaks_bind_iff fun writer => sturdy_closeWriter_ofExcept (tame_ok ()) writer

/-- An action that does nothing about breaking but to open a target, if there is one, breaks
where the target does. -/
theorem breaks_iff_of_optional {α : Type} {x : Action α} {target : Option Text}
    (hnone : target = none → Sturdy x)
    (hsome : ∀ path, target = some path →
      (Breaks x w fault ↔ Breaks (openWriter host path directory) w fault)) :
    Breaks x w fault ↔
      ∃ path, target = some path ∧ Breaks (openWriter host path directory) w fault := by
  rcases target with _ | path
  · exact iff_of_false (hnone rfl w fault) fun ⟨path, hpath, _⟩ => nomatch hpath
  · rw [hsome path rfl]
    constructor
    · exact fun h => ⟨path, rfl, h⟩
    · rintro ⟨other, hother, h⟩
      rwa [Option.some.inj hother]

end Target

namespace Sink

variable {host : Host} {directory : Text} {target : Option Text} {sink : Sink} {w w' : World}
  {fault : Fault}

/-! ## Sinks -/

theorem breaks_ofTarget_iff :
    Breaks (ofTarget host directory target) w fault ↔
      ∃ path, target = some path ∧ Breaks (Target.openWriter host path directory) w fault := by
  refine Target.breaks_iff_of_optional ?_ ?_
  · rintro rfl
    exact sturdy_pure Sink.console
  · rintro path rfl
    exact breaks_bind_iff fun writer => sturdy_pure (Sink.target writer)

/-- A sink that was just opened holds nothing that closing it could fail to write. -/
theorem settled_of_ofTarget {α : Type} (outcome : Except Fault α)
    (h : (ofTarget host directory target).perform w = (.ok sink, w')) :
    sink.settled outcome = outcome := by
  cases target with
  | none =>
    rw [perform_ofTarget_none, Prod.mk.injEq] at h
    rw [← Except.ok.inj h.1]
    rfl
  | some path =>
    obtain ⟨t, events, -, ⟨fault, hopen, -⟩ | ⟨handle, hopen, -⟩⟩ :=
      ofTarget_cases host directory path w <;> rw [hopen, Prod.mk.injEq] at h
    · exact absurd h.1 (by simp)
    · rw [← Except.ok.inj h.1]
      -- both buffers are empty
      exact if_neg fun hfull => absurd hfull.2 (by simp [Buffer.holdsBytes, Buffer.empty])

end Sink
end LineShell
