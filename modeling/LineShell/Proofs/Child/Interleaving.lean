/-
# LineShell.Proofs.Child.Interleaving -- draining comes to the same for every schedule

The two drains of a program take turns in an order that nobody controls. Each turn belongs
to one of them and touches no more than its own stream and sink, so a whole run is the two
drains run on their own, and its events are an interleaving of theirs (`run_interleave`).
A drain that has come to its end stays as it is, so it does not matter by how many turns it
was overrun: every whole run ends alike (`complete_eq`).

What one drain comes to on its own is told by its stream: all lines go to the sink, in
order, and then the stream ends or fails (`drained_console`, `drained_target`).
-/

import LineShell.Child
import LineShell.Proofs.Action.Perform

namespace LineShell

/-! ## Interleavings -/

/-- **Interleaving** — the third list is made of the first two, each in its own order. -/
inductive Interleave {α : Type} : List α → List α → List α → Prop
  | nil : Interleave [] [] []
  | left {a : α} {first second all : List α} :
      Interleave first second all → Interleave (a :: first) second (a :: all)
  | right {a : α} {first second all : List α} :
      Interleave first second all → Interleave first (a :: second) (a :: all)

namespace Interleave

variable {α β : Type} {first second all : List α}

theorem append_left (h : Interleave first second all) (more : List α) :
    Interleave (more ++ first) second (more ++ all) := by
  induction more with
  | nil => exact h
  | cons a rest ih => exact .left ih

theorem append_right (h : Interleave first second all) (more : List α) :
    Interleave first (more ++ second) (more ++ all) := by
  induction more with
  | nil => exact h
  | cons a rest ih => exact .right ih

theorem perm (h : Interleave first second all) : all.Perm (first ++ second) := by
  induction h with
  | nil => exact .refl []
  | left _ ih => exact ih.cons _
  | right _ ih => exact (ih.cons _).trans List.perm_middle.symm

theorem count_eq [BEq α] [LawfulBEq α] (h : Interleave first second all) (a : α) :
    all.count a = first.count a + second.count a := by
  rw [h.perm.count_eq a, List.count_append]

/-- A view that shows nothing of the second list shows the first one in order. -/
theorem filterMap_left (h : Interleave first second all) (view : α → Option β)
    (hview : second.filterMap view = []) : all.filterMap view = first.filterMap view := by
  induction h with
  | nil => rfl
  | left _ ih => simp only [List.filterMap_cons, ih hview]
  | @right a _ _ _ _ ih =>
    rw [List.filterMap_cons] at hview ⊢
    cases hv : view a with
    | none =>
      rw [hv] at hview
      exact ih hview
    | some b =>
      rw [hv] at hview
      exact absurd hview (by simp)

theorem symm (h : Interleave first second all) : Interleave second first all := by
  induction h with
  | nil => exact .nil
  | left _ ih => exact .right ih
  | right _ ih => exact .left ih

theorem filterMap_right (h : Interleave first second all) (view : α → Option β)
    (hview : first.filterMap view = []) : all.filterMap view = second.filterMap view :=
  h.symm.filterMap_left view hview

end Interleave

/-! ## One drain on its own -/

namespace Drain

/-- Several turns of one drain. -/
def turns (channel : Channel) : Nat → Drain → Drain × List Event
  | 0, d => (d, [])
  | n + 1, d =>
    let (next, events) := d.turn channel
    let (last, later) := turns channel n next
    (last, events ++ later)

/-- **Drained** — a drain that has taken all the turns it can make use of. -/
def drained (channel : Channel) (d : Drain) : Drain × List Event := turns channel d.turnsLeft d

theorem turns_of_not_running {channel : Channel} {d : Drain} (h : d.condition ≠ .running)
    (n : Nat) : turns channel n d = (d, []) := by
  induction n with
  | zero => rfl
  | succ n ih => simp [turns, turn_of_not_running h, ih]

/-- With as many turns as it can make use of, a drain comes to its end. -/
theorem turns_not_running {channel : Channel} {d : Drain} {n : Nat} (h : d.turnsLeft ≤ n) :
    (turns channel n d).1.condition ≠ .running := by
  induction n generalizing d with
  | zero => exact absurd h (by simp [turnsLeft])
  | succ n ih =>
    by_cases hr : d.condition = .running
    · rcases turnsLeft_turn channel hr with hstop | hless
      · simpa [turns, turns_of_not_running hstop] using hstop
      · exact ih (d := (d.turn channel).1) (by omega)
    · rw [turns_of_not_running hr]
      exact hr

/-- However many turns it takes a drain to come to its end, it is drained then. -/
theorem turns_eq_drained {channel : Channel} {d : Drain} {n : Nat}
    (h : (turns channel n d).1.condition ≠ .running) : turns channel n d = d.drained channel := by
  -- turns that come after the end change nothing
  have hextend : ∀ (m k : Nat) (d : Drain), (turns channel m d).1.condition ≠ .running →
      turns channel (m + k) d = turns channel m d := by
    intro m k
    induction m with
    | zero =>
      intro d hd
      rw [Nat.zero_add]
      exact turns_of_not_running hd k
    | succ m ih =>
      intro d hd
      rw [Nat.succ_add]
      simp only [turns]
      rw [ih (d.turn channel).1 hd]
  have hend : (turns channel d.turnsLeft d).1.condition ≠ .running :=
    turns_not_running (Nat.le_refl d.turnsLeft)
  rcases Nat.le_total n d.turnsLeft with hle | hle
  · obtain ⟨k, hk⟩ := Nat.exists_eq_add_of_le hle
    rw [drained, hk, hextend n k d h]
  · obtain ⟨k, hk⟩ := Nat.exists_eq_add_of_le hle
    rw [hk, hextend _ k d hend, drained]

end Drain

/-! ## What a stream leaves in its sink -/

/-- A text made of lines, each ended by a line feed. -/
def Text.ofLines (lines : List Text) : Text := lines.flatMap (· ++ ['\n'])

namespace Stream

/-- What a drain has come to when its stream is used up. -/
def condition (s : Stream) : Condition :=
  match s.failure with
  | none => .finished
  | some error => .failed (.system error)

/-- A stream that fails stops the program once. -/
def kills (s : Stream) : List Event :=
  match s.failure with
  | none => []
  | some _ => [.killed]

end Stream

namespace Writer

/-- Lines are written, each with a line feed. -/
def writeLines (w : Writer) (lines : List Text) : Writer :=
  lines.foldl (fun w line => (w.write (line ++ ['\n'])).1) w

@[simp] theorem handle_writeLines (w : Writer) (lines : List Text) :
    (w.writeLines lines).handle = w.handle := by
  induction lines generalizing w with
  | nil => rfl
  | cons line rest ih => exact ih _

theorem text_writeLines (w : Writer) (lines : List Text) :
    (w.writeLines lines).text = w.text ++ Text.ofLines lines := by
  induction lines generalizing w with
  | nil => simp [writeLines, Text.ofLines]
  | cons line rest ih =>
    show ((w.write (line ++ ['\n'])).1.writeLines rest).text = _
    rw [ih, text_write]
    simp [Text.ofLines]

/-- Whatever accepts bytes lets every write succeed. -/
theorem write_of_accepts {w : Writer} (h : w.accepts = true) (text : Text) :
    (w.write text).2 = true := by
  simp only [write, h]
  exact Buffer.write_accepting _ _

end Writer

namespace Drain

/-- On the console every line is an event of its own. -/
theorem drained_console (channel : Channel) (stream : Stream) :
    (start stream .console).drained channel =
      (⟨⟨[], stream.failure⟩, .console, stream.condition⟩,
        stream.lines.map (lineEvent channel) ++ stream.kills) := by
  obtain ⟨lines, failure⟩ := stream
  induction lines with
  | nil => cases failure <;> rfl
  | cons line rest ih =>
    simp only [drained, start, turnsLeft, List.length_cons] at ih ⊢
    rw [turns]
    simp only [turn, ih]
    rfl

/-- A target that accepts bytes takes all lines. -/
theorem drained_target (channel : Channel) (stream : Stream) {writer : Writer}
    (h : writer.accepts = true) :
    (start stream (.target writer)).drained channel =
      (⟨⟨[], stream.failure⟩, .target (writer.writeLines stream.lines), stream.condition⟩,
        stream.kills) := by
  obtain ⟨lines, failure⟩ := stream
  induction lines generalizing writer with
  | nil => cases failure <;> rfl
  | cons line rest ih =>
    -- the first line is taken, and the rest goes to the writer that holds it
    have hdone := Writer.write_of_accepts h (line ++ ['\n'])
    have hrest := @ih (writer.write (line ++ ['\n'])).1 h
    simp only [drained, start, turnsLeft, List.length_cons] at hrest ⊢
    rw [turns]
    rcases hw : writer.write (line ++ ['\n']) with ⟨next, done⟩
    rw [hw] at hdone hrest
    obtain rfl : done = true := hdone
    simp only [turn, hw, hrest]
    simp [Writer.writeLines, hw, Stream.condition, Stream.kills]

end Drain

/-! ## What draining brings about -/

/-- The event comes from a stream: it is one of its lines, or the stop that its failure
brings about. -/
def Event.isFromStream : Event → Bool
  | printed _ | complained _ | killed => true
  | _ => false

theorem Drain.isFromStream_of_mem_turn {channel : Channel} {d : Drain} {event : Event}
    (h : event ∈ (d.turn channel).2) : event.isFromStream = true := by
  obtain ⟨⟨lines, failure⟩, sink, condition⟩ := d
  unfold turn at h
  split at h
  · -- a line is shown on the console, or goes into a file, which fails at most
    split at h
    · obtain rfl := List.mem_singleton.mp h
      cases channel <;> rfl
    · split at h
      · simp at h
      · obtain rfl := List.mem_singleton.mp h
        rfl
  · split at h
    · simp at h
    · obtain rfl := List.mem_singleton.mp h
      rfl
  · simp at h

namespace Draining

theorem isFromStream_of_mem_run {d : Draining} {schedule : List Channel} {event : Event}
    (h : event ∈ (d.run schedule).2) : event.isFromStream = true := by
  induction schedule generalizing d with
  | nil => simp [run] at h
  | cons channel rest ih =>
    rcases List.mem_append.mp h with h | h
    · cases channel with
      | output => exact Drain.isFromStream_of_mem_turn h
      | error => exact Drain.isFromStream_of_mem_turn h
    · exact ih h

/-! ## Both drains -/

/-- A run is the two drains run on their own, and its events are an interleaving of
theirs. -/
theorem run_interleave (d : Draining) (schedule : List Channel) :
    ∃ m n, (d.run schedule).1 = ⟨(d.output.turns .output m).1, (d.error.turns .error n).1⟩ ∧
      Interleave (d.output.turns .output m).2 (d.error.turns .error n).2 (d.run schedule).2 := by
  induction schedule generalizing d with
  | nil => exact ⟨0, 0, rfl, .nil⟩
  | cons channel rest ih =>
    -- the first turn is one more of the drain that takes it
    obtain ⟨m, n, hend, hevents⟩ := ih (d.turn channel).1
    cases channel with
    | output => exact ⟨m + 1, n, hend, hevents.append_left _⟩
    | error => exact ⟨m, n + 1, hend, hevents.append_right _⟩

/-- **Schedules do not matter** — every whole run ends with both drains drained, and its
events are an interleaving of theirs. -/
theorem complete_eq (d : Draining) (turns : List Channel) :
    (d.complete turns).1 = ⟨(d.output.drained .output).1, (d.error.drained .error).1⟩ ∧
      Interleave (d.output.drained .output).2 (d.error.drained .error).2 (d.complete turns).2 := by
  obtain ⟨hout, herr⟩ := complete_not_running d turns
  obtain ⟨m, n, hend, hevents⟩ := run_interleave d (turns ++ (d.run turns).1.schedule)
  change (d.complete turns).1 = _ at hend
  rw [hend] at hout herr
  rw [Drain.turns_eq_drained hout, Drain.turns_eq_drained herr] at hend hevents
  exact ⟨hend, hevents⟩

end Draining

end LineShell
