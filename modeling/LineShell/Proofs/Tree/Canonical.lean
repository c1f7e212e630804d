/-
# LineShell.Proofs.Tree.Canonical -- the paths that directories are found under

A canonical path is absolute, its names are neither empty nor `.` nor `..`, and a directory
stands where it leads and at every location above, so that no link is on the way. What
matters for it is the location alone: a location is `Rooted` if its names are proper and
directories stand above it.

Following a path leads from a rooted location to a rooted one (`Leads.rooted`), whatever
links are on the way: a name is entered from a directory only, going up leaves the names
above, and a link begins at the root or where it stands. A directory that is found from an
absolute working directory is therefore named by a canonical path (`isCanonical_directory`).
It stays canonical as long as no directory is lost (`IsCanonical.frame`).
-/

import LineShell.Proofs.Text.Pieces
import LineShell.Proofs.Tree.Frame
import LineShell.Search
import LineShell.Tree.Leads
import LineShell.Tree.Sound

namespace LineShell

/-! ## Proper names -/

/-- **Proper name** — it stands for itself in a path: it is not empty, is neither `.` nor
`..`, and holds no slash. -/
structure IsProper (name : Text) : Prop where
  ne_nil : name ≠ []
  ne_stay : name ≠ ['.']
  ne_up : name ≠ ['.', '.']
  slash_not_mem : '/' ∉ name

namespace Path

/-- The names that a path asks to enter are proper. -/
theorem isProper_of_enter_mem_steps {path name : Text} (h : .enter name ∈ steps path) :
    IsProper name := by
  rw [steps, List.mem_append] at h
  rcases h with h | h
  · obtain ⟨piece, hpiece, hstep⟩ := List.mem_map.mp h
    rw [List.mem_filter] at hpiece
    unfold Step.ofName at hstep
    split at hstep
    · simp at hstep
    · rename_i hstay
      split at hstep
      · simp at hstep
      · rename_i hup
        obtain rfl := Step.enter.inj hstep
        exact ⟨by simpa using hpiece.2, hstay, hup, Text.not_mem_of_mem_pieces hpiece.1⟩
  · split at h <;> simp at h

/-- A path taken from an absolute one is absolute. -/
theorem isAbsolute_join {directory : Text} (h : isAbsolute directory) (path : Text) :
    isAbsolute (join directory path) := by
  unfold join
  split
  · assumption
  · cases directory with
    | nil => simp [isAbsolute] at h
    | cons c rest => split <;> simpa [isAbsolute] using h

end Path

theorem Location.isAbsolute_toPath (place : Location) : Path.isAbsolute place.toPath := rfl

namespace Tree

/-! ## Rooted locations -/

/-- **Rooted** — the location has proper names, and directories stand above it. -/
structure Rooted (t : Tree) (place : Location) : Prop where
  isProper : ∀ name ∈ place, IsProper name
  isDirectory_above : ∀ above, above <:+ place.tail → t.isDirectory above

namespace Rooted

variable {t t' : Tree} {place : Location}

theorem nil (t : Tree) : t.Rooted [] where
  isProper := by simp
  isDirectory_above := by
    intro above h
    rw [List.suffix_nil.mp h]
    exact isDirectory_nil t

theorem tail (h : t.Rooted place) : t.Rooted place.tail where
  isProper name hname := h.isProper name (List.mem_of_mem_tail hname)
  isDirectory_above above habove := h.isDirectory_above above (habove.trans (List.tail_suffix _))

/-- What stands in a rooted directory under a proper name is rooted. -/
theorem cons (h : t.Rooted place) (hd : t.isDirectory place) {name : Text}
    (hname : IsProper name) : t.Rooted (name :: place) where
  isProper other hother := by
    rcases List.mem_cons.mp hother with rfl | hother
    · exact hname
    · exact h.isProper other hother
  isDirectory_above above habove := by
    cases place with
    | nil =>
      rw [List.suffix_nil.mp habove]
      exact hd
    | cons outer rest =>
      rcases List.suffix_cons_iff.mp habove with rfl | habove
      · exact hd
      · exact h.isDirectory_above above habove

/-- A link begins at a rooted location. -/
theorem origin (h : t.Rooted place) (target : Text) : t.Rooted (Tree.origin place target) := by
  unfold Tree.origin
  split
  · exact .nil t
  · exact h

theorem frame (h : t.Rooted place) {places : List Location} (hframe : Frame places t t') :
    t'.Rooted place where
  isProper := h.isProper
  isDirectory_above above habove := hframe.isDirectory (h.isDirectory_above above habove)

end Rooted

/-- **Following** leads from a rooted location to a rooted one, through any links. -/
theorem Leads.rooted {t : Tree} {here place : Location} {path : List Path.Step} {links : Nat}
    (h : t.Leads here path links place) (hhere : t.Rooted here)
    (hproper : ∀ name, .enter name ∈ path → IsProper name) : t.Rooted place := by
  induction h with
  | done here => exact hhere
  | stay hd _ ih => exact ih hhere fun name hn => hproper name (List.mem_cons_of_mem _ hn)
  | slash hd _ ih => exact ih hhere fun name hn => hproper name (List.mem_cons_of_mem _ hn)
  -- going up never leaves the locations above
  | up hd _ ih => exact ih hhere.tail fun name hn => hproper name (List.mem_cons_of_mem _ hn)
  | enter hd hlength hentry hlink _ ih =>
    have hname := hproper _ List.mem_cons_self
    exact ih (hhere.cons hd hname) fun name hn => hproper name (List.mem_cons_of_mem _ hn)
  | link hd hlength htarget _ ih =>
    refine ih (hhere.origin _) fun name hn => ?_
    -- the steps are those of the link's target and the ones that were left
    rcases List.mem_append.mp hn with hn | hn
    · exact Path.isProper_of_enter_mem_steps hn
    · exact hproper name (List.mem_cons_of_mem _ hn)

theorem rooted_of_locate {t : Tree} {base place : Location} {path : Text}
    (habsolute : Path.isAbsolute path) (h : t.locate base path = .ok place) :
    t.Rooted place := by
  unfold locate at h
  split at h
  · simp at h
  · split at h
    · simp at h
    · obtain ⟨links, -, hleads⟩ := follow_eq_ok_iff.mp h
      rw [origin_of_isAbsolute habsolute] at hleads
      exact hleads.rooted (.nil t) fun name => Path.isProper_of_enter_mem_steps

/-! ## Canonical paths -/

/-- **Canonical** — the path names a directory through proper names and directories only. -/
def IsCanonical (t : Tree) (path : Text) : Prop :=
  ∃ place : Location, path = place.toPath ∧ t.Rooted place ∧ t.isDirectory place

namespace IsCanonical

variable {t t' : Tree} {path : Text}

theorem isAbsolute (h : t.IsCanonical path) : Path.isAbsolute path := by
  obtain ⟨place, rfl, -, -⟩ := h
  exact place.isAbsolute_toPath

/-- A canonical path stays one as long as no directory is lost. -/
theorem frame (h : t.IsCanonical path) {places : List Location} (hframe : Frame places t t') :
    t'.IsCanonical path := by
  obtain ⟨place, rfl, hrooted, hd⟩ := h
  exact ⟨place, rfl, hrooted.frame hframe, hframe.isDirectory hd⟩

end IsCanonical

/-- **Finding a directory** from an absolute working directory gives a canonical path. -/
theorem isCanonical_directory {t : Tree} {base : Location} {path directory found : Text}
    (habsolute : Path.isAbsolute directory)
    (h : Search.directory t base path directory = some found) : t.IsCanonical found := by
  unfold Search.directory at h
  dsimp only at h
  split at h
  · simp at h
  · split at h
    · rename_i place hplace
      split at h
      · rename_i hd
        obtain rfl := Option.some.inj h
        exact ⟨place, rfl, rooted_of_locate (Path.isAbsolute_join habsolute path) hplace, hd⟩
      · simp at h
    · simp at h

end Tree
end LineShell
