/-
# LineShell.Proofs.Session.Framed -- no command loses anything

Whatever a session is asked to do, and however it ends, everything that stood in the tree
still stands there as an entry of the same kind (`Action.Framed`). The property is
compositional (`compositional_framed`): it holds for what leaves the tree alone and for
opening and closing targets, and it passes through sequences and failures that are dealt
with. Programs have it if they leave the tree alone themselves (`Launcher.KeepsTree`).
-/

import LineShell.Launcher.Table
import LineShell.Proofs.Session.Compositional

namespace LineShell

/-! ## Framed actions -/

namespace Action

variable {α β : Type}

/-- **Framed** — everything in the tree is kept but for the texts of some files. -/
def Framed (x : Action α) : Prop :=
  ∀ w, ∃ places, Tree.Frame places w.tree (x.perform w).2.tree

/-- What leaves the tree alone is framed. -/
theorem framed_of_tree_eq {x : Action α} (h : ∀ w, (x.perform w).2.tree = w.tree) :
    x.Framed := by
  intro w
  rw [h w]
  exact ⟨[], .refl [] _⟩

theorem framed_pure (a : α) : Framed (pure a) := framed_of_tree_eq fun _ => rfl

theorem framed_throw (fault : Fault) : Framed (throw fault : Action α) :=
  framed_of_tree_eq fun _ => rfl

theorem framed_emit (event : Event) : Framed (emit event) := framed_of_tree_eq fun _ => rfl

theorem framed_note (m : Message) : Framed (note m) :=
  framed_of_tree_eq fun w => by rw [perform_note, World.tree_after]

theorem framed_tree : Framed tree := framed_of_tree_eq fun _ => rfl

theorem Framed.bind {x : Action α} {f : α → Action β} (hx : x.Framed)
    (hf : ∀ a, (f a).Framed) : Framed (x >>= f) := by
  intro w
  obtain ⟨places, hfirst⟩ := hx w
  rw [perform_bind]
  rcases h : x.perform w with ⟨fault | a, w'⟩ <;> rw [h] at hfirst
  · exact ⟨places, hfirst⟩
  · obtain ⟨more, hsecond⟩ := hf a w'
    exact ⟨places ++ more, hfirst.trans hsecond⟩

theorem Framed.tryCatch {x : Action α} {handle : Fault → Action α} (hx : x.Framed)
    (hf : ∀ fault, (handle fault).Framed) : Framed (tryCatch x handle) := by
  intro w
  obtain ⟨places, hfirst⟩ := hx w
  rw [perform_tryCatch]
  rcases h : x.perform w with ⟨fault | a, w'⟩ <;> rw [h] at hfirst
  · obtain ⟨more, hsecond⟩ := hf fault w'
    exact ⟨places ++ more, hfirst.trans hsecond⟩
  · exact ⟨places, hfirst⟩

end Action

open LineShell.Action

/-! ## Programs that keep the tree -/

/-- **Keeping the tree** — the programs that are started change nothing in the tree. -/
def Launcher.KeepsTree (launcher : Launcher) : Prop :=
  ∀ t busy launch child t', launcher.start t busy launch = .ok (child, t') → t' = t

theorem Launcher.keepsTree_ofTable (table : Table) (turns : Launch → List Channel) :
    (ofTable table turns).KeepsTree := by
  intro t busy launch child t' h
  cases hb : table.behaviour launch.executable with
  | error e =>
    rw [start_ofTable_of_error turns t busy hb] at h
    exact absurd h (by simp)
  | ok child' =>
    rw [start_ofTable_of_ok turns t busy hb] at h
    exact (Prod.ext_iff.mp (Except.ok.inj h)).2.symm

/-! ## Basic actions -/

theorem Target.framed_openWriter (host : Host) (path directory : Text) :
    Framed (openWriter host path directory) := by
  intro w
  obtain ⟨t, events, -, ⟨fault, hopen, hframe⟩ | ⟨handle, hopen, hred⟩⟩ :=
    openWriter_cases host path directory w <;> rw [hopen]
  · exact ⟨[], hframe⟩
  · exact ⟨_, hred.frame⟩

theorem Target.framed_closeWriter {α : Type} (writer : Writer) (outcome : Except Fault α) :
    Framed (closeWriter writer outcome) := by
  intro w
  rw [perform_closeWriter]
  exact ⟨_, (Sink.target writer).frame_flushedTo w.tree⟩

theorem Program.framed_conduct {launcher : Launcher} (hkeeps : launcher.KeepsTree)
    (launch : Launch) (output error : Sink) : Framed (conduct launcher launch output error) := by
  intro w
  rw [perform_conduct]
  rcases hstart : launcher.start w.tree (output.place?.toList ++ error.place?.toList) launch with
    fault | ⟨child, t⟩
  · exact ⟨[], .refl [] _⟩
  · -- the program is drained in the tree that it was started in
    obtain rfl := hkeeps _ _ _ _ _ hstart
    dsimp only
    rw [perform_drain_eq]
    exact ⟨[], .refl [] _⟩

/-- The frame of an action is put together from those of its parts. -/
theorem Action.compositional_framed {launcher : Launcher} (hkeeps : launcher.KeepsTree) :
    Compositional launcher fun _ x => x.Framed where
  pure := framed_pure
  throw := framed_throw
  bind := .bind
  tryCatch := .tryCatch
  emit _ := framed_emit _
  note := framed_note
  tree := framed_tree
  openWriter := Target.framed_openWriter
  closeWriter := Target.framed_closeWriter
  conduct := Program.framed_conduct hkeeps

namespace Session

/-- **A step** keeps everything in the tree, however it ends. -/
theorem frame_step {launcher : Launcher} (hkeeps : launcher.KeepsTree) (host : Host)
    (state : State) (s : Step) (w : World) :
    ∃ places, Tree.Frame places w.tree (step host launcher state s w).2.tree := by
  rw [(step_eq host launcher state s w).1]
  exact (compositional_framed hkeeps).step host state s w

end Session
end LineShell
