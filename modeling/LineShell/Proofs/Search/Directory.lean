/-
# LineShell.Proofs.Search.Directory -- which directories are found, and under which names

A directory is found exactly if the path names one (`directory_eq_some_iff`), and what is
found is the path of its location. The search can be told in two parts, as a test whether the
path names a directory and then as a name without links that is worked out from the path
alone; the two parts resolve links differently, and they agree (`directory_eq_linkFree`).

What is found in a sound tree can be asked for in the place of the path (`Finds`): it names
the same directory, there is no link on the way, and searching for it finds it again, from
wherever it is asked for (`Finds.again`).
-/

import LineShell.Proofs.Tree.LinkFree

namespace LineShell

namespace Search

variable {t : Tree} {base place : Location} {path cwd wanted found : Text}

theorem directory_eq_some_iff :
    directory t base path cwd = some found ↔
      ∃ place, t.Names base (Path.join cwd path) place ∧ t.isDirectory place ∧
        found = place.toPath := by
  unfold directory
  dsimp only
  split
  · rename_i hnul
    refine ⟨fun h => absurd h (by simp), ?_⟩
    rintro ⟨place, hnames, -⟩
    exact absurd (List.contains_iff_mem.mp hnul) hnames.nul_not_mem
  · rename_i hnul
    rw [List.contains_iff_mem] at hnul
    simp only [← Tree.locate_eq_ok_iff hnul]
    split
    · rename_i place hplace
      split
      · rename_i hd
        constructor
        · intro h
          exact ⟨place, hplace, hd, (Option.some.inj h).symm⟩
        · rintro ⟨other, hother, -, rfl⟩
          rw [Except.ok.inj (hplace.symm.trans hother)]
      · rename_i hd
        refine ⟨fun h => absurd h (by simp), ?_⟩
        rintro ⟨other, hother, hdirectory, -⟩
        rw [hplace] at hother
        exact absurd (Except.ok.inj hother ▸ hdirectory) hd
    · rename_i cause hplace
      refine ⟨fun h => absurd h (by simp), ?_⟩
      rintro ⟨other, hother, -⟩
      rw [hplace] at hother
      exact absurd hother (by simp)

/-- **Nothing is found** exactly if the path names no directory. -/
theorem directory_eq_none_iff :
    directory t base path cwd = none ↔
      ¬ ∃ place, t.Names base (Path.join cwd path) place ∧ t.isDirectory place := by
  rw [Option.eq_none_iff_forall_ne_some]
  constructor
  · rintro h ⟨place, hnames, hd⟩
    exact h place.toPath (directory_eq_some_iff.mpr ⟨place, hnames, hd, rfl⟩)
  · intro h found hfound
    obtain ⟨place, hnames, hd, -⟩ := directory_eq_some_iff.mp hfound
    exact h ⟨place, hnames, hd⟩

/-- **Two ways to resolve** — the search is the test for a directory, and then the name
without links that is worked out from the path. -/
theorem directory_eq_linkFree (t : Tree) (base : Location) (path cwd : Text) :
    directory t base path cwd =
      if t.holdsDirectory base (Path.join cwd path) then
        some (t.linkFree base (Path.join cwd path)).toPath
      else none := by
  split
  · rename_i hholds
    obtain ⟨place, hnames, hd⟩ := Tree.holdsDirectory_iff.mp hholds
    obtain ⟨links, -, hleads⟩ := hnames.leads
    rw [Tree.linkFree_of_leads hleads]
    exact directory_eq_some_iff.mpr ⟨place, hnames, hd, rfl⟩
  · rename_i hholds
    rw [Tree.holdsDirectory_iff] at hholds
    exact directory_eq_none_iff.mpr hholds

/-! ## What is found -/

/-- **Finds** — a path is found to be the name of a directory. -/
structure Finds (t : Tree) (base : Location) (wanted found : Text) (place : Location) : Prop where
  /-- The path names the directory. -/
  names : t.Names base wanted place
  isDirectory : t.isDirectory place
  /-- What is found are the names down to it, behind one slash each. -/
  found_eq : found = place.toPath
  /-- They are proper names, and directories stand above it. -/
  rooted : t.Rooted place
  /-- From the root, what is found leads to the same directory, and meets no link. -/
  leads : t.Leads [] (Path.steps found) 0 place

theorem finds_of_directory (hsound : t.IsSound) (h : directory t base path cwd = some found) :
    ∃ place, Finds t base (Path.join cwd path) found place := by
  obtain ⟨place, hnames, hd, rfl⟩ := directory_eq_some_iff.mp h
  exact ⟨place, hnames, hd, rfl, hsound.rooted hd, Tree.leads_toPath hsound hd⟩

namespace Finds

/-- What is found names the directory, from everywhere, unless it is too long. -/
theorem names_found (h : Finds t base wanted found place) (hsound : t.IsSound)
    (hlength : Text.byteLength found ≤ pathLimit) (other : Location) : t.Names other found place := by
  obtain rfl := h.found_eq
  exact Tree.names_toPath hsound h.isDirectory hlength other

/-- **Found again** — searching for what is found finds it again. -/
theorem again (h : Finds t base wanted found place) (hsound : t.IsSound)
    (hlength : Text.byteLength found ≤ pathLimit) (other : Location) (cwd : Text) :
    directory t other found cwd = some found := by
  apply directory_eq_some_iff.mpr
  refine ⟨place, ?_, h.isDirectory, h.found_eq⟩
  have habsolute : Path.isAbsolute found = true := by
    rw [h.found_eq]
    exact place.isAbsolute_toPath
  rw [Path.join_of_isAbsolute habsolute]
  exact h.names_found hsound hlength other

end Finds

end Search
end LineShell
