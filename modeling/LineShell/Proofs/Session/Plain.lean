/-
# LineShell.Proofs.Session.Plain -- sessions that stay free of NUL characters

The directory that a session works in holds no NUL character if the one that it began in holds
none, whatever lines it is given: a path with a NUL is not followed, and the links of the tree
hold none. That is so as long as the programs that are started leave no such link behind
(`Launcher.KeepsPlain`); the shell itself makes no links at all (`compositional_keepsPlain`).
-/

import LineShell.Proofs.Session.Directory
import LineShell.Proofs.Tree.Plain

namespace LineShell

/-! ## Actions that keep links plain -/

/-- **Keeping links plain** — the programs that are started leave no link behind that points to a
path with a NUL. -/
def Launcher.KeepsPlain (launcher : Launcher) : Prop :=
  ∀ t busy launch child t', launcher.start t busy launch = .ok (child, t') →
    t.PlainLinks → t'.PlainLinks

theorem Launcher.KeepsTree.keepsPlain {launcher : Launcher} (h : launcher.KeepsTree) :
    launcher.KeepsPlain := by
  intro t busy launch child t' hstart hlinks
  rw [h t busy launch child t' hstart]
  exact hlinks

namespace Action

variable {α β : Type}

/-- **Keeps links plain** — whatever becomes of the action, the links of the tree are plain
behind it if they were before. -/
def KeepsPlain (x : Action α) : Prop :=
  ∀ w, w.tree.PlainLinks → (x.perform w).2.tree.PlainLinks

theorem keepsPlain_of_tree_eq {x : Action α} (h : ∀ w, (x.perform w).2.tree = w.tree) :
    x.KeepsPlain := by
  intro w hlinks
  rw [h w]
  exact hlinks

theorem KeepsPlain.bind {x : Action α} {f : α → Action β} (hx : x.KeepsPlain)
    (hf : ∀ a, (f a).KeepsPlain) : KeepsPlain (x >>= f) := by
  intro w hlinks
  have hfirst := hx w hlinks
  rw [perform_bind]
  rcases h : x.perform w with ⟨fault | a, w'⟩ <;> rw [h] at hfirst
  · exact hfirst
  · exact hf a w' hfirst

theorem KeepsPlain.tryCatch {x : Action α} {handle : Fault → Action α} (hx : x.KeepsPlain)
    (hf : ∀ fault, (handle fault).KeepsPlain) : KeepsPlain (tryCatch x handle) := by
  intro w hlinks
  have hfirst := hx w hlinks
  rw [perform_tryCatch]
  rcases h : x.perform w with ⟨fault | a, w'⟩ <;> rw [h] at hfirst
  · exact hf fault w' hfirst
  · exact hfirst

end Action

open LineShell.Action

/-! ## Basic actions -/

namespace Target

/-- A target that was opened is a file or a device, and no link. -/
theorem Redirected.plainLinks {base : Location} {target text : Text} {t t' : Tree}
    {handles : List Handle} (h : Redirected base target text t t' handles)
    (hlinks : t.PlainLinks) : t'.PlainLinks := by
  refine hlinks.frame h.frame fun place hplace path hlink => ?_
  obtain ⟨executable, hfile⟩ := h.at?_of_mem (Redirected.mem_places.mp hplace)
  exact absurd (hfile.symm.trans hlink) (by simp)

theorem keepsPlain_openWriter (host : Host) (path directory : Text) :
    KeepsPlain (openWriter host path directory) := by
  intro w hlinks
  obtain ⟨t, events, -, ⟨fault, hopen, hframe⟩ | ⟨handle, hopen, hred⟩⟩ :=
    openWriter_cases host path directory w <;> rw [hopen, World.tree_after]
  · exact hlinks.frame hframe (by simp)
  · exact hred.plainLinks hlinks

theorem keepsPlain_closeWriter {α : Type} (writer : Writer) (outcome : Except Fault α) :
    KeepsPlain (closeWriter writer outcome) := by
  intro w hlinks
  rw [perform_closeWriter, World.tree_after]
  unfold Writer.flushedTo
  split
  · exact hlinks.writeFile _ _ _
  · exact hlinks

end Target

theorem Program.keepsPlain_conduct {launcher : Launcher} (hkeeps : launcher.KeepsPlain)
    (launch : Launch) (output error : Sink) :
    KeepsPlain (conduct launcher launch output error) := by
  intro w hlinks
  rw [perform_conduct]
  rcases hstart : launcher.start w.tree (output.place?.toList ++ error.place?.toList) launch with
    fault | ⟨child, t⟩
  · exact hlinks
  · -- the program is drained in the tree that it has left
    dsimp only
    rw [perform_drain_eq]
    exact hkeeps _ _ _ _ _ hstart hlinks

theorem Action.compositional_keepsPlain {launcher : Launcher} (hkeeps : launcher.KeepsPlain) :
    Compositional launcher fun _ x => x.KeepsPlain where
  pure _ := keepsPlain_of_tree_eq fun _ => rfl
  throw _ := keepsPlain_of_tree_eq fun _ => rfl
  bind := .bind
  tryCatch := .tryCatch
  emit _ := keepsPlain_of_tree_eq fun _ => rfl
  note m := keepsPlain_of_tree_eq fun w => by rw [perform_note, World.tree_after]
  tree := keepsPlain_of_tree_eq fun _ => rfl
  openWriter := Target.keepsPlain_openWriter
  closeWriter := Target.keepsPlain_closeWriter
  conduct := Program.keepsPlain_conduct hkeeps

/-! ## Where a session stands -/

namespace Session

/-- **Plain** — the session has the given variables, its directory holds no NUL, and no link in
the tree points to a path with one. -/
structure Standing.IsPlain (environment : Environment) (now : Standing) : Prop where
  environment_eq : now.state.environment = environment
  directory : '\x00' ∉ now.state.directory
  links : now.tree.PlainLinks

section Plain

variable {host : Host} {launcher : Launcher} {environment : Environment} {now : Standing}

/-- **A step** leaves a plain session plain, whatever it is asked to do. -/
theorem Standing.IsPlain.next (hkeeps : launcher.KeepsPlain) (hhost : host.directory.IsPlain)
    (h : now.IsPlain environment) (limit : Level) (s : Step) :
    (now.next host launcher limit s).IsPlain environment := by
  have hmoves := moves_step host launcher now.state s ⟨now.tree, limit, []⟩
  have hlinks : (now.next host launcher limit s).tree.PlainLinks := by
    have htree : (now.next host launcher limit s).tree =
        ((s.action host launcher now.state).perform ⟨now.tree, limit, []⟩).2.tree :=
      congrArg World.tree (step_eq host launcher now.state s _).1
    rw [htree]
    exact (compositional_keepsPlain hkeeps).step host now.state s _ h.links
  refine ⟨hmoves.environment_eq.trans h.environment_eq, ?_, hlinks⟩
  rcases hmoves with hstays | ⟨path, directory, -, hfound, hmoved⟩
  · have hdirectory : (now.next host launcher limit s).state.directory = now.state.directory :=
      congrArg State.directory hstays
    rw [hdirectory]
    exact h.directory
  · -- the new directory was found in the tree that the step has left
    have hdirectory : (now.next host launcher limit s).state.directory = directory :=
      congrArg State.directory hmoved
    rw [hdirectory]
    exact Tree.nul_not_mem_directory hlinks hhost hfound

/-- **A session** that is plain stays so. -/
theorem Standing.IsPlain.standing (hkeeps : launcher.KeepsPlain) (hhost : host.directory.IsPlain)
    (h : now.IsPlain environment) (limit : Level) (steps : List Step) :
    (standing host launcher limit now steps).IsPlain environment := by
  induction steps generalizing now with
  | nil => exact h
  | cons s rest ih => exact ih (h.next hkeeps hhost limit s)

end Plain
end Session
end LineShell
