/-
# LineShell.Proofs.Session.Moving -- changing the directory and back

Changing the directory succeeds with a state if it comes to that state and prints nothing, at
every log level (`ChangesTo`). That is the case exactly if a directory is found, and then the
state is the old one in that directory (`changesTo_iff`).

Since the state keeps the path that was found and not the one that was asked for, two things
have to be said about it. What is found stands for the directory everywhere, so a change of
directory can be undone (`directory_resolves`). And to go on from there is to go on from where
the path led, links and `..` included: changing along a path is changing along its two parts
in turn (`changesTo_parts`).
-/

import LineShell.Proofs.Search.Directory
import LineShell.Proofs.Session.Perform
import LineShell.Proofs.Tree.Parts

namespace LineShell

/-! ## Beginnings of paths -/

/-- A path that does not begin with a tilde is not expanded. -/
theorem expandHome_of_head? {path : Text} (h : path.head? ≠ some '~') (home : Text) :
    expandHome home path = path := by
  cases path with
  | nil => rfl
  | cons c rest =>
    apply expandHome_of_head
    rintro rfl
    exact h rfl

theorem expandHome_of_isAbsolute {path : Text} (h : Path.isAbsolute path = true) (home : Text) :
    expandHome home path = path := by
  apply expandHome_of_head?
  intro htilde
  simp [Path.isAbsolute, htilde] at h

/-- Only the beginning of a path is expanded. -/
theorem expandHome_append {first : Text} (h : first ≠ []) (home rest : Text) :
    expandHome home (first ++ rest) = expandHome home first ++ rest := by
  obtain ⟨c, more, rfl⟩ := List.exists_cons_of_ne_nil h
  by_cases hc : c = '~'
  · subst hc
    simp [expandHome]
  · rw [List.cons_append, expandHome_of_head hc, expandHome_of_head hc]
    rfl

namespace Path

variable {first : Text} (cwd : Text)

theorem join_ne_nil (h : first ≠ []) : join cwd first ≠ [] := by
  unfold join
  split
  · exact h
  · split
    · exact List.append_ne_nil_of_right_ne_nil _ h
    · exact List.append_ne_nil_of_right_ne_nil _ (List.cons_ne_nil _ _)

/-- Only the beginning of a path decides from where it is taken. -/
theorem join_append_slash (h : first ≠ []) (second : Text) :
    join cwd (first ++ '/' :: second) = join cwd first ++ '/' :: second := by
  obtain ⟨c, rest, rfl⟩ := List.exists_cons_of_ne_nil h
  have hsame : isAbsolute (c :: rest ++ '/' :: second) = isAbsolute (c :: rest) := rfl
  unfold join
  rw [hsame]
  split
  · rfl
  · split
    · rw [List.append_assoc]
    · rw [List.append_assoc]
      rfl

end Path

namespace Builtin

variable {host : Host} {t : Tree} {path : Text} {state next : State}

/-! ## Success -/

/-- **Changes to** — changing the directory comes to the state and leaves the tree; nothing
but messages is told. -/
def ChangesTo (host : Host) (t : Tree) (path : Text) (state next : State) : Prop :=
  ∀ w : World, w.tree = t → ∃ events, Quiet events ∧
    (changeDirectory host path state).perform w = (.ok next, w.after t events)

theorem perform_changeDirectory_of_found {found : Text} (w : World)
    (h : Search.directory w.tree host.directory (expandHome (state.home host) path)
      state.directory = some found) :
    ∃ events, Quiet events ∧ (changeDirectory host path state).perform w =
      (.ok (state.inDirectory found), w.after w.tree events) := by
  refine ⟨_, quiet_eventsAt w.limit ⟨.debug, "cd: " ++ state.directory ++ " -> " ++ found⟩, ?_⟩
  simp only [changeDirectory, Action.perform_bind, Action.perform_tree, h, Action.perform_log,
    Action.perform_pure]

/-- Where no directory is found the user is told. -/
theorem perform_changeDirectory_of_none (w : World)
    (h : Search.directory w.tree host.directory (expandHome (state.home host) path)
      state.directory = none) :
    ∃ events, .printed ("cd: " ++ path ++ ": No such file or directory") ∈ events ∧
      (changeDirectory host path state).perform w = (.ok state, w.after w.tree events) := by
  let wanted := expandHome (state.home host) path
  let message : Message := ⟨.debug, "Not a directory: " ++ Path.join state.directory wanted⟩
  refine ⟨message.eventsAt w.limit ++ [.printed _], List.mem_append_right _ List.mem_cons_self, ?_⟩
  simp only [changeDirectory, Action.perform_bind, Action.perform_tree, h, Action.perform_log,
    Action.perform_printLine, Action.perform_pure, World.tree_after, World.after_after]
  rfl

/-- Changing the directory succeeds exactly if a directory is found. -/
theorem changesTo_iff :
    ChangesTo host t path state next ↔
      ∃ found, Search.directory t host.directory (expandHome (state.home host) path)
        state.directory = some found ∧ next = state.inDirectory found := by
  constructor
  · intro h
    obtain ⟨events, hquiet, hperform⟩ := h ⟨t, .quiet, []⟩ rfl
    rcases hfound : Search.directory t host.directory (expandHome (state.home host) path)
      state.directory with _ | found
    · -- the user would have been told
      obtain ⟨told, hmem, htold⟩ := perform_changeDirectory_of_none ⟨t, .quiet, []⟩ hfound
      rw [hperform, Prod.mk.injEq] at htold
      rw [← (World.after_inj htold.2).2] at hmem
      obtain ⟨m, hm⟩ := hquiet _ hmem
      exact absurd hm (by simp)
    · obtain ⟨told, -, htold⟩ := perform_changeDirectory_of_found ⟨t, .quiet, []⟩ hfound
      rw [hperform, Prod.mk.injEq] at htold
      exact ⟨found, rfl, Except.ok.inj htold.1⟩
  · rintro ⟨found, hfound, rfl⟩ w rfl
    exact perform_changeDirectory_of_found w hfound

/-! ## Back again -/

/-- **Finding directories** — none is found exactly if the path names none. Else the answer is
the path that is worked out without links; it names the directory that was asked for, through
proper names and without a link, and is found again from everywhere. So a change of directory
is undone by changing back to where it began. -/
theorem directory_resolves (hsound : t.IsSound) (base : Location) (path cwd : Text) :
    let wanted := Path.join cwd path
    (Search.directory t base path cwd = none ↔
      ¬ ∃ place, t.Names base wanted place ∧ t.isDirectory place) ∧
    (Search.directory t base path cwd =
      if t.holdsDirectory base wanted then some (t.linkFree base wanted).toPath else none) ∧
    (∀ found, Search.directory t base path cwd = some found →
      ∃ place, Search.Finds t base wanted found place ∧
        (Text.byteLength found ≤ pathLimit →
          (∀ other, t.Names other found place) ∧
          ∀ other elsewhere, Search.directory t other found elsewhere = some found)) ∧
    ∀ host argument state next, t.IsCanonical state.directory →
      Text.byteLength state.directory ≤ pathLimit → ChangesTo host t argument state next →
      ChangesTo host t state.directory next state := by
  refine ⟨Search.directory_eq_none_iff, Search.directory_eq_linkFree t base path cwd, ?_, ?_⟩
  · intro found hfound
    obtain ⟨place, hfinds⟩ := Search.finds_of_directory hsound hfound
    refine ⟨place, hfinds, fun hlength => ⟨?_, ?_⟩⟩
    · exact hfinds.names_found hsound hlength
    · exact hfinds.again hsound hlength
  · intro host argument state next hcanonical hlength hchanges
    obtain ⟨found, -, rfl⟩ := changesTo_iff.mp hchanges
    obtain ⟨place, hplace, -, hd⟩ := hcanonical
    have habsolute : Path.isAbsolute state.directory = true := by
      rw [hplace]
      exact place.isAbsolute_toPath
    -- the old directory is still there under its own name
    have hold : Search.directory t host.directory state.directory found = some state.directory := by
      apply Search.directory_eq_some_iff.mpr
      refine ⟨place, ?_, hd, hplace⟩
      rw [Path.join_of_isAbsolute habsolute, hplace]
      exact Tree.names_toPath hsound hd (hplace ▸ hlength) host.directory
    apply changesTo_iff.mpr
    refine ⟨state.directory, ?_, rfl⟩
    rw [expandHome_of_isAbsolute habsolute]
    exact hold

/-- A link into a directory that is reached through another link and then left upwards. -/
theorem directory_resolves_link :
    let host : Host := ⟨[], [], none, 990⟩
    let t := Tree.empty.put ["way"] (.link "dev/fd/..")
    Search.directory t [] "way/." "/" = some "/proc/self" ∧
    (∀ elsewhere, Search.directory t [] "/proc/self" elsewhere = some "/proc/self") ∧
    ChangesTo host t "way/." ⟨"/", []⟩ ⟨"/proc/self", []⟩ ∧
    ChangesTo host t "/" ⟨"/proc/self", []⟩ ⟨"/", []⟩ := by
  intro host t
  have hsound : t.IsSound :=
    Tree.isSound_empty.put (by decide) (Tree.isDirectory_nil _) (by decide +kernel)
  have hfound : Search.directory t [] "way/." "/" = some "/proc/self" := by decide +kernel
  have hchanges : ChangesTo host t "way/." ⟨"/", []⟩ ⟨"/proc/self", []⟩ :=
    changesTo_iff.mpr ⟨"/proc/self", hfound, rfl⟩
  obtain ⟨-, -, hfinds, hback⟩ := directory_resolves hsound [] "way/." "/"
  obtain ⟨place, -, hagain⟩ := hfinds _ hfound
  refine ⟨hfound, (hagain (by decide)).2 [], hchanges, ?_⟩
  exact hback host "way/." ⟨"/", []⟩ _ ⟨[], rfl, .nil _, Tree.isDirectory_nil _⟩ (by decide) hchanges

/-! ## In two parts -/

/-- **In turn** — where changing the directory along two paths with a slash between them
succeeds, so does changing it along the first one, and from there along the second one with
the same state in the end, unless the second path has become too long where it is taken
from. The second path may go up, and both may lead through links. -/
theorem changesTo_parts (hsound : t.IsSound) {first second : Text} (hfirst : first ≠ [])
    (hexpanded : expandHome (state.home host) first ≠ []) (hsecond : second ≠ [])
    (hrelative : Path.isAbsolute second = false) (htilde : second.head? ≠ some '~')
    (h : ChangesTo host t (first ++ '/' :: second) state next) :
    ∃ middle, ChangesTo host t first state middle ∧
      (Text.byteLength (Path.join middle.directory second) ≤ pathLimit →
        ChangesTo host t second middle next) := by
  obtain ⟨found, hfound, rfl⟩ := changesTo_iff.mp h
  obtain ⟨place, hnames, hd, rfl⟩ := Search.directory_eq_some_iff.mp hfound
  rw [expandHome_append hfirst, Path.join_append_slash _ hexpanded] at hnames
  -- the way to the directory passes another one, which the first part names
  obtain ⟨mid, hmid, hmidDirectory, links, hle, hleads⟩ :=
    hnames.parts (Path.join_ne_nil _ hexpanded) hsecond
  refine ⟨state.inDirectory mid.toPath, changesTo_iff.mpr ⟨mid.toPath, ?_, rfl⟩, fun hlength => ?_⟩
  · exact Search.directory_eq_some_iff.mpr ⟨mid, hmid, hmidDirectory, rfl⟩
  · have habsolute : Path.isAbsolute (Path.join mid.toPath second) = true :=
      Path.isAbsolute_join mid.isAbsolute_toPath second
    -- what is taken from the name of that directory goes the rest of the way
    have hrest : t.Names host.directory (Path.join mid.toPath second) place := by
      refine ⟨Path.ne_nil_of_isAbsolute habsolute, ?_, hlength, links, hle, ?_⟩
      · apply Path.nul_not_mem_join (hsound.nul_not_mem_toPath hmidDirectory)
        intro hnul
        exact hnames.nul_not_mem (List.mem_append_right _ (List.mem_cons_of_mem _ hnul))
      · rw [Tree.origin_of_isAbsolute habsolute]
        exact (Tree.leads_join_toPath_iff hsound hmidDirectory hsecond hrelative).mpr hleads
    apply changesTo_iff.mpr
    refine ⟨place.toPath, ?_, rfl⟩
    rw [expandHome_of_head? htilde]
    exact Search.directory_eq_some_iff.mpr ⟨place, hrest, hd, rfl⟩

/-- From the home directory through a link, and up from where it leads. -/
theorem changesTo_parts_link :
    let host : Host := ⟨[], [], none, 990⟩
    let state : State := ⟨"/", [("HOME", "/dev")]⟩
    let there := state.inDirectory "/proc/self/fd"
    ChangesTo host Tree.empty "~/fd/../fd" state there ∧
      ChangesTo host Tree.empty "~/fd" state there ∧ ChangesTo host Tree.empty "../fd" there there := by
  intro host state there
  have hchanges : ChangesTo host Tree.empty "~/fd/../fd" state there :=
    changesTo_iff.mpr ⟨"/proc/self/fd", by decide +kernel, rfl⟩
  obtain ⟨middle, hfirst, hsecond⟩ := changesTo_parts Tree.isSound_empty
    (show ("~/fd" : Text) ≠ [] by decide) (by decide) (show ("../fd" : Text) ≠ [] by decide)
    (by decide) (by decide) hchanges
  have hlink : Search.directory Tree.empty [] "/dev/fd" "/" = some "/proc/self/fd" := by
    decide +kernel
  obtain ⟨found, hfound, rfl⟩ := changesTo_iff.mp hfirst
  obtain rfl : "/proc/self/fd" = found := Option.some.inj (hlink.symm.trans hfound)
  exact ⟨hchanges, hfirst, hsecond (by decide)⟩

end Builtin

end LineShell
