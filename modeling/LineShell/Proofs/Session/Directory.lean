/-
# LineShell.Proofs.Session.Directory -- where a session works

A session begins in a directory that is named by a canonical path. However many steps it
takes, and whether they fail or not, it keeps its variables and works in such a directory
again, as the tree then is (`directory_stays_canonical`).

The invariant (`Standing.Sound`) has two ends. A step that leaves the directory alone loses
nothing of the tree, so the path stays canonical; a step that changes it has found a
directory, and what is found from an absolute path has a canonical name. For the second
end no assumption on the tree is needed: it may hold links of any kind, also to nowhere and
in circles.
-/

import LineShell.Proofs.Session.Framed
import LineShell.Proofs.Session.Perform
import LineShell.Proofs.Tree.Canonical

namespace LineShell
namespace Session

/-- A state that moves keeps its variables. -/
theorem Moves.environment_eq {host : Host} {line : CommandLine} {state next : State} {t : Tree}
    (h : Moves host line state t next) : next.environment = state.environment := by
  rcases h with rfl | ⟨path, directory, -, -, rfl⟩
  · rfl
  · rfl

/-- A state moves from a canonical directory to a canonical one. -/
theorem Moves.isCanonical {host : Host} {line : CommandLine} {state next : State} {t : Tree}
    (h : Moves host line state t next) (hcanonical : t.IsCanonical state.directory) :
    t.IsCanonical next.directory := by
  rcases h with rfl | ⟨path, directory, -, hfound, rfl⟩
  · exact hcanonical
  · exact Tree.isCanonical_directory hcanonical.isAbsolute hfound

/-- **Sound** — the session has the given variables and works in a canonical directory. -/
structure Standing.Sound (environment : Environment) (now : Standing) : Prop where
  environment_eq : now.state.environment = environment
  isCanonical : now.tree.IsCanonical now.state.directory

section Sound

variable {host : Host} {launcher : Launcher} {environment : Environment} {now : Standing}

theorem Standing.Sound.next (hkeeps : launcher.KeepsTree) (h : now.Sound environment)
    (limit : Level) (s : Step) : (now.next host launcher limit s).Sound environment := by
  have hmoves := moves_step host launcher now.state s ⟨now.tree, limit, []⟩
  obtain ⟨places, hframe⟩ := frame_step hkeeps host now.state s ⟨now.tree, limit, []⟩
  constructor
  · rw [← h.environment_eq]
    exact hmoves.environment_eq
  · -- the old directory is canonical in the new tree, whether or not it is left
    exact hmoves.isCanonical (h.isCanonical.frame hframe)

theorem Standing.Sound.standing (hkeeps : launcher.KeepsTree) (h : now.Sound environment)
    (limit : Level) (steps : List Step) :
    (standing host launcher limit now steps).Sound environment := by
  induction steps generalizing now with
  | nil => exact h
  | cons s rest ih => exact ih (h.next hkeeps limit s)

/-- **The working directory** — after any steps the variables are those of the beginning and
the directory is canonical, and so it is in every answer; one more step changes the
directory only if its command begins with `cd` and a space and names a directory, which is
the new one then. -/
theorem directory_stays_canonical (host : Host) (hkeeps : launcher.KeepsTree)
    (hcanonical : now.tree.IsCanonical now.state.directory) (limit : Level)
    (steps : List Step) :
    let later := standing host launcher limit now steps
    later.state.environment = now.state.environment ∧
    later.tree.IsCanonical later.state.directory ∧
    (∀ answer ∈ run host launcher limit now.state now.tree steps,
      answer.report.state.environment = now.state.environment ∧
      answer.tree.IsCanonical answer.report.state.directory) ∧
    ∀ s, let next := later.next host launcher limit s
      next.state.directory ≠ later.state.directory →
        ∃ path, s.commandLine.command = "cd " ++ path ∧
          Search.directory next.tree host.directory
            (expandHome (later.state.home host) (Text.trim path)) later.state.directory =
              some next.state.directory := by
  have hsound : now.Sound now.state.environment := ⟨rfl, hcanonical⟩
  have hlater : ∀ steps, (standing host launcher limit now steps).Sound now.state.environment :=
    hsound.standing hkeeps limit
  refine ⟨(hlater steps).environment_eq, (hlater steps).isCanonical, ?_, ?_⟩
  · intro answer hanswer
    obtain ⟨first, s, -, -, hstanding⟩ := mem_run host launcher limit hanswer
    have hafter := hlater (first ++ [s])
    rw [hstanding] at hafter
    exact ⟨hafter.environment_eq, hafter.isCanonical⟩
  · intro s next hchanged
    rcases moves_step host launcher (standing host launcher limit now steps).state s
      ⟨(standing host launcher limit now steps).tree, limit, []⟩ with
      hstays | ⟨path, directory, hcommand, hfound, hmoved⟩
    · exact absurd (congrArg State.directory hstays) hchanged
    · refine ⟨path, hcommand, ?_⟩
      have hnext : next.state.directory = directory := congrArg State.directory hmoved
      rw [hnext]
      exact hfound

end Sound

/-- A session at the root that follows a link, makes directories through it and fails. -/
theorem directory_stays_canonical_link :
    let host : Host := ⟨[], [], none, 990⟩
    let launcher := Launcher.ofTable [] fun _ => []
    let now : Standing := ⟨⟨"/", []⟩, Tree.empty.put ["way"] (.link "dev/fd/..")⟩
    let steps : List Step := [.line "cd way", .line "echo a > new/b/c", .line "echo a > b\x00"]
    let later := standing host launcher .quiet now steps
    later.state.environment = now.state.environment ∧
      later.tree.IsCanonical later.state.directory := by
  intro host launcher now steps
  have hcanonical : now.tree.IsCanonical now.state.directory :=
    ⟨[], by decide, .nil _, Tree.isDirectory_nil _⟩
  have hkeeps : launcher.KeepsTree := Launcher.keepsTree_ofTable [] _
  have h := directory_stays_canonical host hkeeps hcanonical .quiet steps
  exact ⟨h.1, h.2.1⟩

end Session
end LineShell
