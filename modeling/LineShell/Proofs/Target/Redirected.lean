/-
# LineShell.Proofs.Target.Redirected -- what a redirect target holds in the end

Redirecting to a target opens it, writes something and closes it. `Redirected` says what
that does to the tree, by what was opened: nothing, because opening failed; a device; or
the file that the target leads to, links followed. Only that file changes, and it holds
exactly the text that was written; whatever it held before is gone. In every case the
missing directories above the target may have been made.

Opening alone redirects the empty text (`openWriter_cases`), and what is written before
closing takes its place (`Redirected.flushed`). Filling and touching a target follow.
-/

import LineShell.Proofs.Tree.Opened
import LineShell.Target

namespace LineShell

/-! ## Closing -/

namespace Writer

/-- The tree once the buffers of a writer have reached its file. -/
def flushedTo (w : Writer) (t : Tree) : Tree :=
  match w.handle with
  | .file place => t.writeFile place w.buffer.passed w.text
  | .device _ => t

/-- What closing a writer makes of an outcome: the device that is always full refuses what
is still in the buffers. -/
def settled {α : Type} (w : Writer) (outcome : Except Fault α) : Except Fault α :=
  if w.handle = .device .full ∧ w.buffer.holdsBytes then .error (.ofCause .noSpace) else outcome

theorem settled_of_accepts {α : Type} {w : Writer} (h : w.accepts = true)
    (outcome : Except Fault α) : w.settled outcome = outcome := by
  simp only [accepts, decide_eq_true_eq] at h
  rw [settled, if_neg fun hfull => h hfull.1]

/-- With nothing in its buffers, even the device that is always full has nothing to refuse. -/
theorem settled_empty {α : Type} (handle : Handle) (outcome : Except Fault α) :
    settled ⟨handle, [], .empty⟩ outcome = outcome :=
  if_neg fun hfull => absurd hfull.2 (by simp [Buffer.holdsBytes, Buffer.empty])

end Writer

namespace Target

@[simp] theorem perform_closeWriter {α : Type} (writer : Writer) (outcome : Except Fault α)
    (w : World) :
    (closeWriter writer outcome).perform w =
      (.ok (writer.settled outcome),
        w.after (writer.flushedTo w.tree) [.closed writer.handle]) := by
  obtain ⟨handle, pieces, buffer⟩ := writer
  unfold closeWriter
  simp only [Action.perform_bind, Action.perform_emit]
  cases handle with
  | file place =>
    simp only [Action.perform_bind, Action.perform_modify, Action.perform_pure]
    simp [Writer.settled, Writer.flushedTo, World.after]
  | device device =>
    cases device with
    | full => by_cases h : buffer.holdsBytes <;> simp [Writer.settled, Writer.flushedTo, h]
    | null => simp [Writer.settled, Writer.flushedTo]
    | zero => simp [Writer.settled, Writer.flushedTo]
    | terminal => simp [Writer.settled, Writer.flushedTo]
    | descriptor number => simp [Writer.settled, Writer.flushedTo]

/-! ## What redirecting does to a tree -/

/-- **Redirected** — what is left of redirecting `text` to the path `target`, by the handles
that were opened. -/
inductive Redirected (base : Location) (target text : Text) (t t' : Tree) : List Handle → Prop
  | nothing : Tree.Frame [] t t' → Redirected base target text t t' []
  | device (device : Device) : Tree.Frame [] t t' →
      Redirected base target text t t' [.device device]
  | file {place : Location} (executable : Bool) : Tree.Frame [place] t t' →
      t'.at? place = some (.file text executable) → t'.locate base target = .ok place →
      Redirected base target text t t' [.file place]

namespace Redirected

variable {base : Location} {target text : Text} {t t' : Tree} {handles : List Handle}

/-- The locations of the files among some handles. -/
def places (handles : List Handle) : List Location :=
  handles.filterMap fun
    | .file place => some place
    | .device _ => none

theorem mem_places {place : Location} : place ∈ places handles ↔ .file place ∈ handles := by
  simp only [places, List.mem_filterMap]
  constructor
  · rintro ⟨handle, hh, he⟩
    cases handle with
    | file other =>
      obtain rfl := Option.some.inj he
      exact hh
    | device device => simp at he
  · exact fun h => ⟨_, h, rfl⟩

/-- Nothing changes but the files that were opened. -/
theorem frame (h : Redirected base target text t t' handles) :
    Tree.Frame (places handles) t t' := by
  cases h with
  | nothing h => exact h
  | device device h => exact h
  | file _ h _ _ => exact h

/-- A file that was opened holds the text that was redirected. -/
theorem at?_of_mem (h : Redirected base target text t t' handles) {place : Location}
    (hp : .file place ∈ handles) : ∃ executable, t'.at? place = some (.file text executable) := by
  cases h with
  | nothing h => simp at hp
  | device device h => simp at hp
  | file _ h hfile _ =>
    obtain rfl : place = _ := by simpa using hp
    exact ⟨_, hfile⟩

/-- A file that was opened is what the target names, links followed. -/
theorem locate_of_mem (h : Redirected base target text t t' handles) {place : Location}
    (hp : .file place ∈ handles) : t'.locate base target = .ok place := by
  cases h with
  | nothing h => simp at hp
  | device device h => simp at hp
  | file _ h _ hlocate =>
    obtain rfl : place = _ := by simpa using hp
    exact hlocate

/-- New directories may come first. -/
theorem behind {t₀ : Tree} (hframe : Tree.Frame [] t₀ t)
    (h : Redirected base target text t t' handles) :
    Redirected base target text t₀ t' handles := by
  cases h with
  | nothing h => exact .nothing (hframe.trans h)
  | device device h => exact .device device (hframe.trans h)
  | file executable h hfile hlocate => exact .file executable (hframe.trans h) hfile hlocate

/-- What a writer holds takes the place of the empty text when it is flushed. -/
theorem flushed (writer : Writer) (h : Redirected base target [] t t' [writer.handle]) :
    Redirected base target writer.text t (writer.flushedTo t') [writer.handle] := by
  obtain ⟨handle, pieces, buffer⟩ := writer
  cases h with
  | device device h => exact .device device h
  | @file place executable h hfile hlocate =>
    refine .file executable ?_ ?_ ?_
    · exact (h.trans (Tree.frame_writeFile _ place _ _)).mono (by simp)
    · exact Tree.at?_writeFile_of_empty hfile _ _
    · rw [← hlocate]
      exact ((Tree.sameShape_writeFile _ place _ _).locate_eq base target).symm

end Redirected

/-! ## Opening -/

/-- Opening the file of a target, when the directories above it are made. -/
theorem openFile_redirected (base : Location) (target : Text) (t : Tree) :
    (∃ fault, (Tree.openFile base target).perform t = (.error fault, t)) ∨
      ∃ handle t', (Tree.openFile base target).perform t = (.ok handle, t') ∧
        Redirected base target [] t t' [handle] := by
  rcases Tree.openFile_cases base target t with ⟨fault, hfail, -⟩ | ⟨device, h⟩ |
    ⟨place, executable, htakes, hplace, hne, hlen, h⟩
  · exact .inl ⟨fault, hfail⟩
  · exact .inr ⟨_, _, h, .device device (.refl [] t)⟩
  · refine .inr ⟨_, _, h, .file executable (Tree.frame_put_file htakes []) ?_ ?_⟩
    · rw [Tree.at?_put _ _ _ _ htakes.ne_nil, if_pos rfl]
    · exact Tree.locate_put_of_placeForFile [] hne hlen htakes hplace

/-- The directories above a target are made, if it has a directory part. -/
def makeAbove (host : Host) (target : Text) : TreeAction Unit :=
  if Path.directoryPart target ≠ [] then
    Tree.makeDirectoriesWithin host.directory host.nestingLimit (Path.directoryPart target)
  else pure ()

theorem framed_makeAbove (host : Host) (target : Text) : (makeAbove host target).Framed :=
  .ite (Tree.framed_makeDirectoriesWithin _ _ _) (TreeAction.framed_pure _)

/-- The message that announces an opening. -/
def openingMessage (target : Text) : Message :=
  ⟨.debug, "Opening redirection target: " ++ target⟩

theorem perform_openWriter (host : Host) (path directory : Text) (w : World) :
    (openWriter host path directory).perform w =
      (do
        Action.onTree (makeAbove host (resolve path directory))
        Action.note (openingMessage (resolve path directory))
        let handle ← Action.onTree (Tree.openFile host.directory (resolve path directory))
        Action.emit (.opened handle)
        return ⟨handle, [], .empty⟩ : Action Writer).perform w := by
  unfold openWriter makeAbove
  dsimp only
  split
  · rfl
  · rw [Action.perform_bind (Action.onTree (pure ())), Action.perform_onTree,
      TreeAction.perform_pure, World.after_self]
    rfl

/-- **Opening a target** fails, with nothing new but directories and messages, or opens a
handle, and then the file is empty. -/
theorem openWriter_cases (host : Host) (path directory : Text) (w : World) :
    ∃ t events, Quiet events ∧
      ((∃ fault, (openWriter host path directory).perform w = (.error fault, w.after t events) ∧
          Tree.Frame [] w.tree t) ∨
        ∃ handle, (openWriter host path directory).perform w =
            (.ok ⟨handle, [], .empty⟩, w.after t (events ++ [.opened handle])) ∧
          Redirected host.directory (resolve path directory) [] w.tree t [handle]) := by
  have habove := framed_makeAbove host (resolve path directory) w.tree
  have hquiet := quiet_eventsAt w.limit (openingMessage (resolve path directory))
  rw [perform_openWriter, Action.perform_bind, Action.perform_onTree]
  rcases hmake : (makeAbove host (resolve path directory)).perform w.tree with
    ⟨fault | _, t₁⟩ <;> rw [hmake] at habove
  · exact ⟨t₁, [], quiet_nil, .inl ⟨fault, rfl, habove⟩⟩
  · simp only [Action.perform_bind, Action.perform_note, Action.perform_onTree, World.tree_after,
      World.limit_after, World.after_after, List.nil_append]
    rcases openFile_redirected host.directory (resolve path directory) t₁ with
      ⟨fault, hfile⟩ | ⟨handle, t', hfile, hred⟩ <;> simp only [hfile]
    · exact ⟨t₁, _, hquiet, .inl ⟨fault, by simp, habove⟩⟩
    · exact ⟨t', _, hquiet, .inr ⟨handle, by simp, hred.behind habove⟩⟩

/-! ## Filling and touching -/

/-- The events of handles that are opened and closed again. -/
def openings (handles : List Handle) : List Event :=
  handles.flatMap fun handle => [.opened handle, .closed handle]

@[simp] theorem openings_nil : openings [] = [] := rfl

@[simp] theorem openings_cons (handle : Handle) (rest : List Handle) :
    openings (handle :: rest) = .opened handle :: .closed handle :: openings rest := rfl

@[simp] theorem opened?_openings (handles : List Handle) :
    (openings handles).filterMap Event.opened? = handles := by
  induction handles with
  | nil => rfl
  | cons handle rest ih => simp [List.filterMap_cons, Event.opened?, ih]

/-- A text redirected to a target is all that its file holds, and nothing else shows. -/
theorem perform_fill (host : Host) (path directory text : Text) (w : World) :
    ∃ result t events handles, Quiet events ∧
      (fill host path directory text).perform w =
        (result, w.after t (events ++ openings handles)) ∧
      Redirected host.directory (resolve path directory) text w.tree t handles := by
  obtain ⟨t, events, hquiet, ⟨fault, hopen, hframe⟩ | ⟨handle, hopen, hred⟩⟩ :=
    openWriter_cases host path directory w
  · refine ⟨.error fault, t, events, [], hquiet, ?_, .nothing hframe⟩
    simp [fill, Action.perform_bind, hopen]
  · let written := Writer.write ⟨handle, [], .empty⟩ text
    let outcome : Except Fault Unit := if written.2 then .ok () else .error (.ofCause .noSpace)
    -- the writer holds the text and nothing else when it is flushed
    have htext : written.1.text = text := Writer.text_write ⟨handle, [], .empty⟩ text
    have hflush := hred.flushed written.1
    rw [htext] at hflush
    refine ⟨written.1.settled outcome, written.1.flushedTo t, events, [handle], hquiet, ?_, hflush⟩
    simp only [fill, Action.perform_bind, hopen, perform_closeWriter, Action.perform_ofExcept]
    simp [written, outcome, Writer.write]
    rfl

/-- A target that is touched is empty afterwards. -/
theorem perform_touch (host : Host) (path directory : Text) (w : World) :
    ∃ result t events handles, Quiet events ∧
      (touch host path directory).perform w =
        (result, w.after t (events ++ openings handles)) ∧
      Redirected host.directory (resolve path directory) [] w.tree t handles := by
  obtain ⟨t, events, hquiet, ⟨fault, hopen, hframe⟩ | ⟨handle, hopen, hred⟩⟩ :=
    openWriter_cases host path directory w
  · refine ⟨.error fault, t, events, [], hquiet, ?_, .nothing hframe⟩
    simp [touch, Action.perform_bind, hopen]
  · let writer : Writer := ⟨handle, [], .empty⟩
    refine ⟨writer.settled (.ok ()), writer.flushedTo t, events, [handle], hquiet, ?_,
      Redirected.flushed writer hred⟩
    simp only [touch, Action.perform_bind, hopen, perform_closeWriter, Action.perform_ofExcept]
    simp [writer]

end Target
end LineShell
