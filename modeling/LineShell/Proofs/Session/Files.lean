/-
# LineShell.Proofs.Session.Files -- what the files hold after a session

Lines follow one another, and each may change the directory, make directories, and open the
same file under another name. What a file holds in the end is still told by one line
(`session_files`): the last one that opened it, links followed, or none if no line did.
What a line opens counts by the location that its target led to when it was opened.

Two facts about one line carry this: everything but the files that it opened is kept, and
those hold what its command produced (`next_redirects`). A file that later lines do not
open is kept by each of them (`at?_standing_of_not_opened`).
-/

import LineShell.Proofs.Session.Framed
import LineShell.Proofs.Session.Redirected

namespace LineShell

namespace Target.Redirects

variable {host : Host} {directory : Text} {line : CommandLine} {text : Channel → Text}
  {t t' : Tree} {handles : List Handle}

/-- Nothing changes but the files that were opened. -/
theorem frame (h : Redirects host directory line text t t' handles) :
    Tree.Frame (Redirected.places handles) t t' := by
  unfold Redirects at h
  split at h
  · obtain ⟨rfl, rfl⟩ := h
    exact .refl _ _
  · exact h.frame

/-- A file that was opened is where the target leads, and holds what was sent to it. -/
theorem of_mem (h : Redirects host directory line text t t' handles) {place : Location}
    (hplace : .file place ∈ handles) :
    ∃ channel path executable, line.redirect? = some (channel, path) ∧
      t'.locate host.directory (resolve path directory) = .ok place ∧
      t'.at? place = some (.file (text channel) executable) := by
  unfold Redirects at h
  split at h
  · obtain ⟨-, rfl⟩ := h
    simp at hplace
  · rename_i channel path hredirect
    obtain ⟨executable, hfile⟩ := h.at?_of_mem hplace
    exact ⟨channel, path, executable, hredirect, h.locate_of_mem hplace, hfile⟩

end Target.Redirects

namespace Session

/-- Whatever a session is asked to do, everything in the tree is kept but for the texts of
some files. -/
theorem frame_standing {launcher : Launcher} (hkeeps : launcher.KeepsTree) (host : Host)
    (limit : Level) (now : Standing) (steps : List Step) :
    ∃ places, Tree.Frame places now.tree (standing host launcher limit now steps).tree := by
  induction steps generalizing now with
  | nil => exact ⟨[], .refl _ _⟩
  | cons s rest ih =>
    obtain ⟨places, hfirst⟩ := frame_step hkeeps host now.state s ⟨now.tree, limit, []⟩
    obtain ⟨more, hrest⟩ := ih (now.next host launcher limit s)
    exact ⟨places ++ more, hfirst.trans hrest⟩

/-- The handles that a line opens. -/
def Standing.opened (host : Host) (launcher : Launcher) (limit : Level) (now : Standing)
    (line : Text) : List Handle :=
  (step host launcher now.state (.line line) ⟨now.tree, limit, []⟩).2.events.filterMap
    Event.opened?

/-- Where a session stands after some lines. -/
def standingAfter (host : Host) (launcher : Launcher) (limit : Level) (now : Standing)
    (lines : List Text) : Standing :=
  standing host launcher limit now (lines.map .line)

/-- Lines are taken one after the other. -/
theorem standingAfter_append_cons (host : Host) (launcher : Launcher) (limit : Level)
    (now : Standing) (first : List Text) (line : Text) (rest : List Text) :
    standingAfter host launcher limit now (first ++ line :: rest) =
      standingAfter host launcher limit
        ((standingAfter host launcher limit now first).next host launcher limit (.line line))
        rest := by
  simp only [standingAfter, standing, List.map_append, List.map_cons, List.foldl_append,
    List.foldl_cons]

section Table

variable (host : Host) (table : Launcher.Table) (turns : Launch → List Channel) (limit : Level)

/-- **The next line** redirects what its command produces where the session stands. -/
theorem next_redirects (now : Standing) (line : Text) :
    let launcher := Launcher.ofTable table turns
    let next := now.next host launcher limit (.line line)
    Target.Redirects host now.state.directory (CommandLine.ofLine line)
      (Builtin.produced host table now.state now.tree (CommandLine.ofLine line).command)
      now.tree next.tree (now.opened host launcher limit line) ∧
    (OpensNothing host now.state now.tree line →
      next.tree = now.tree ∧ now.opened host launcher limit line = []) := by
  obtain ⟨result, t, events, hline, hleft⟩ :=
    runLine_redirects host table turns line now.state ⟨now.tree, limit, []⟩
  have hworld := (step_eq host (.ofTable table turns) now.state (.line line)
    ⟨now.tree, limit, []⟩).1
  simp only [Step.action, hline] at hworld
  simp only [Standing.next, Standing.opened, hworld]
  exact hleft

/-- A file that no line opens keeps its text. -/
theorem at?_standing_of_not_opened {now : Standing} {lines : List Text} {place : Location}
    {text : Text} {executable : Bool} (hfile : now.tree.at? place = some (.file text executable))
    (hnone : ∀ first line rest, lines = first ++ line :: rest →
      .file place ∉ (standingAfter host (.ofTable table turns) limit now first).opened host
        (.ofTable table turns) limit line) :
    (standingAfter host (.ofTable table turns) limit now lines).tree.at? place =
      some (.file text executable) := by
  induction lines generalizing now with
  | nil => exact hfile
  | cons line rest ih =>
    -- the first line keeps the file, and so do the others from where it leads
    have hfirst := hnone [] line rest rfl
    have hframe := (next_redirects host table turns limit now line).1.frame
    refine ih (hframe.at?_file ?_ hfile) fun first other more hrest => ?_
    · rwa [Target.Redirected.mem_places]
    · exact hnone (line :: first) other more (by rw [hrest]; rfl)

/-- **Files after a session** of lines: nothing is lost; a file that no line opened keeps its
text; a file that was opened holds what the last line that opened it produced; and some
lines open nothing. -/
theorem session_files (now : Standing) (lines : List Text) :
    let launcher := Launcher.ofTable table turns
    let stands := standingAfter host launcher limit now
    (∀ place entry, now.tree.at? place = some entry → ∃ entry',
      (stands lines).tree.at? place = some entry' ∧ entry'.emptied = entry.emptied) ∧
    (∀ place text executable, now.tree.at? place = some (.file text executable) →
      (∀ first line rest, lines = first ++ line :: rest →
        .file place ∉ (stands first).opened host launcher limit line) →
      (stands lines).tree.at? place = some (.file text executable)) ∧
    (∀ first line rest place, lines = first ++ line :: rest →
      .file place ∈ (stands first).opened host launcher limit line →
      (∀ middle other more, rest = middle ++ other :: more →
        .file place ∉ (stands (first ++ line :: middle)).opened host launcher limit other) →
      ∃ channel path executable,
        (CommandLine.ofLine line).redirect? = some (channel, path) ∧
        (stands (first ++ [line])).tree.locate host.directory
          (Target.resolve path (stands first).state.directory) = .ok place ∧
        (stands lines).tree.at? place = some (.file (Builtin.produced host table
          (stands first).state (stands first).tree (CommandLine.ofLine line).command channel)
            executable)) ∧
    (∀ first line rest, lines = first ++ line :: rest →
      OpensNothing host (stands first).state (stands first).tree line →
      (stands first).opened host launcher limit line = [] ∧
        (stands (first ++ [line])).tree = (stands first).tree) := by
  intro launcher stands
  refine ⟨?_, ?_, ?_, ?_⟩
  · intro place entry hentry
    obtain ⟨places, hframe⟩ := frame_standing (Launcher.keepsTree_ofTable table turns) host limit
      now (lines.map .line)
    exact hframe.exists_entry hentry
  · intro place text executable hfile hnone
    exact at?_standing_of_not_opened host table turns limit hfile hnone
  · rintro first line rest place rfl hopened hlast
    obtain ⟨channel, path, executable, hredirect, hlocate, hfile⟩ :=
      (next_redirects host table turns limit (stands first) line).1.of_mem hopened
    refine ⟨channel, path, executable, hredirect, ?_, ?_⟩
    · simp only [stands, standingAfter_append_cons]
      exact hlocate
    · -- the lines behind do not open the file again
      simp only [stands, standingAfter_append_cons] at hlast ⊢
      exact at?_standing_of_not_opened host table turns limit hfile hlast
  · rintro first line rest rfl hnothing
    obtain ⟨htree, hopened⟩ :=
      (next_redirects host table turns limit (stands first) line).2 hnothing
    refine ⟨hopened, ?_⟩
    simp only [stands, standingAfter_append_cons]
    exact htree

end Table

/-- One file is opened twice, the second time through a link and from another directory. -/
theorem session_files_link :
    let host : Host := ⟨[], [], none, 990⟩
    let now : Standing := ⟨⟨"/", []⟩, Tree.empty.put ["g"] (.link "f")⟩
    let lines : List Text := ["echo one > f", "cd dev", "pwd > ../g"]
    ∃ executable, (standingAfter host (.ofTable [] fun _ => []) .quiet now lines).tree.at? ["f"] =
      some (.file "/dev\n" executable) := by
  intro host now lines
  let here := standingAfter host (.ofTable [] fun _ => []) .quiet now ["echo one > f", "cd dev"]
  have hopened : .file ["f"] ∈ here.opened host (.ofTable [] fun _ => []) .quiet "pwd > ../g" := by
    decide +kernel
  have hsplit : (CommandLine.ofLine "pwd > ../g").redirect? =
      some (Channel.output, ("../g" : Text)) := by
    decide +kernel
  have hproduced : Builtin.produced host [] here.state here.tree
      (CommandLine.ofLine "pwd > ../g").command Channel.output = "/dev\n" := by
    decide +kernel
  obtain ⟨channel, path, executable, hredirect, -, hfile⟩ :=
    (session_files host [] (fun _ => []) .quiet now lines).2.2.1 _ _ [] ["f"] rfl hopened (by simp)
  rw [hsplit, Option.some.injEq, Prod.mk.injEq] at hredirect
  obtain ⟨rfl, rfl⟩ := hredirect
  refine ⟨executable, hfile.trans ?_⟩
  rw [← hproduced]

end Session
end LineShell
