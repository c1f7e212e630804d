/-
# LineShell.Proofs.Tree.Absolute -- paths that name the same from everywhere

An absolute path begins at the root. What it names in a tree is therefore the same from
wherever it is asked for, and so is what making its directories or opening its file does to
the tree. Both operations also take parts of the path that they are given; each part is a
front of the path, and a front that is not empty begins at the root as well.

The search for a program asks for its candidates. A candidate of an absolute directory is
absolute, whatever the command is, so a search path of such directories finds the same
program from everywhere (`Search.program_eq_of_isAbsolute`). Wherever a search begins, the
program that it finds is told by an absolute path (`Search.isAbsolute_of_program_eq`).
-/

import LineShell.Proofs.Action.Perform
import LineShell.Proofs.Tree.Canonical
import LineShell.Proofs.Tree.Nesting
import Mathlib.Data.List.TakeWhile

namespace LineShell

/-! ## Fronts of absolute paths -/

namespace Path

variable {path front : Text}

theorem isAbsolute_iff : isAbsolute path = true ↔ ∃ rest, path = '/' :: rest := by
  rw [isAbsolute, decide_eq_true_iff, List.head?_eq_some_iff]

/-- A front of an absolute path is absolute if it is not empty. -/
theorem isAbsolute_of_prefix (h : isAbsolute path = true) (hfront : front <+: path)
    (hne : front ≠ []) : isAbsolute front = true := by
  obtain ⟨rest, rfl⟩ := isAbsolute_iff.mp h
  obtain ⟨c, more, rfl⟩ := List.exists_cons_of_ne_nil hne
  obtain ⟨rfl, -⟩ := List.cons_prefix_cons.mp hfront
  exact isAbsolute_iff.mpr ⟨more, rfl⟩

theorem withoutEndSlashes_prefix_self (path : Text) : withoutEndSlashes path <+: path := by
  unfold withoutEndSlashes
  split
  · exact List.prefix_rfl
  · rw [← List.reverse_suffix, List.reverse_reverse]
    exact List.dropWhile_suffix _

/-- The directory part of a path is a front of it. -/
theorem directoryPart_prefix_self (path : Text) : directoryPart path <+: path := by
  have hfront : (path.reverse.dropWhile (· ≠ '/')).reverse <+: path := by
    rw [← List.reverse_suffix, List.reverse_reverse]
    exact List.dropWhile_suffix _
  exact (withoutEndSlashes_prefix_self _).trans hfront

theorem parted_prefix_self (path : Text) : (parted path).1 <+: path := by
  unfold parted
  split
  · exact (directoryPart_prefix_self _).trans (directoryPart_prefix_self path)
  · exact directoryPart_prefix_self path

theorem withoutEndSlashes_ne_nil (h : path ≠ []) : withoutEndSlashes path ≠ [] := by
  unfold withoutEndSlashes
  split
  · exact h
  · rename_i hslashes
    intro hnil
    -- nothing but slashes would have been dropped
    have hdropped := List.dropWhile_eq_nil_iff.mp (List.reverse_eq_nil_iff.mp hnil)
    exact hslashes (List.all_eq_true.mpr fun c hc => hdropped c (List.mem_reverse.mpr hc))

/-- An absolute path has a directory part, and that is absolute too. -/
theorem isAbsolute_directoryPart (h : isAbsolute path = true) :
    isAbsolute (directoryPart path) = true := by
  refine isAbsolute_of_prefix h (directoryPart_prefix_self path) (withoutEndSlashes_ne_nil ?_)
  intro hnil
  obtain ⟨rest, rfl⟩ := isAbsolute_iff.mp h
  have hdropped := List.dropWhile_eq_nil_iff.mp (List.reverse_eq_nil_iff.mp hnil)
  exact absurd (hdropped '/' (by simp)) (by simp)

theorem ne_nil_of_isAbsolute (h : isAbsolute path = true) : path ≠ [] := by
  rintro rfl
  exact absurd h (by decide)

end Path

/-! ## Operations on a tree -/

namespace Tree

open TreeAction

variable {t : Tree} {path : Text} (h : Path.isAbsolute path = true) (base other : Location)
include h

theorem locate_eq_of_isAbsolute : t.locate base path = t.locate other path := by
  unfold locate
  rw [origin_of_isAbsolute h, origin_of_isAbsolute h]

theorem holds_eq_of_isAbsolute : t.holds base path = t.holds other path := by
  unfold holds lookUp?
  rw [locate_eq_of_isAbsolute h base other]

theorem holdsDirectory_eq_of_isAbsolute :
    t.holdsDirectory base path = t.holdsDirectory other path := by
  unfold holdsDirectory lookUp?
  rw [locate_eq_of_isAbsolute h base other]

theorem makeDirectory_eq_of_isAbsolute : makeDirectory base path = makeDirectory other path := by
  have hplace : ∀ t : Tree, t.placeForDirectory base path = t.placeForDirectory other path := by
    intro t
    unfold placeForDirectory
    rw [origin_of_isAbsolute h, origin_of_isAbsolute h]
  unfold makeDirectory
  simp only [hplace]

theorem makeDirectoryUnlessThere_eq_of_isAbsolute :
    makeDirectoryUnlessThere base path = makeDirectoryUnlessThere other path := by
  have hthere := fun t : Tree => @holdsDirectory_eq_of_isAbsolute t path h base other
  unfold makeDirectoryUnlessThere
  simp only [makeDirectory_eq_of_isAbsolute h base other, hthere]

/-- Whether a path lacks its parent does not depend on where it is asked. -/
theorem lacksParent_iff_of_isAbsolute : t.LacksParent base path ↔ t.LacksParent other path := by
  unfold LacksParent
  refine and_congr_right fun hne => and_congr_right fun _ => ?_
  rw [holds_eq_of_isAbsolute (Path.isAbsolute_of_prefix h (Path.parted_prefix_self path) hne) base other]

theorem perform_makeDirectoriesWithin_eq_of_isAbsolute (depth : Nat) (t : Tree) :
    (makeDirectoriesWithin base depth path).perform t =
      (makeDirectoriesWithin other depth path).perform t := by
  induction depth generalizing path t with
  | zero => rfl
  | succ depth ih =>
    have hlast := makeDirectoryUnlessThere_eq_of_isAbsolute h base other
    by_cases hlacks : t.LacksParent base path
    · have hlacks' := (lacksParent_iff_of_isAbsolute h base other).mp hlacks
      -- the parent is a front of the path, and is made from everywhere alike
      have hparent : Path.isAbsolute (Path.parted path).1 = true :=
        Path.isAbsolute_of_prefix h (Path.parted_prefix_self path) hlacks.1
      have habove := ih hparent t
      rw [perform_makeDirectoriesWithin_of_lacksParent hlacks,
        perform_makeDirectoriesWithin_of_lacksParent hlacks', perform_bind, perform_bind, hlast,
        ignoringExisting, ignoringExisting, perform_tryCatch, perform_tryCatch, habove]
    · have hlacks' := mt (lacksParent_iff_of_isAbsolute h base other).mpr hlacks
      rw [perform_makeDirectoriesWithin_of_not_lacksParent hlacks,
        perform_makeDirectoriesWithin_of_not_lacksParent hlacks', hlast]

/-- **Making directories** does the same from everywhere. -/
theorem makeDirectoriesWithin_eq_of_isAbsolute (depth : Nat) :
    makeDirectoriesWithin base depth path = makeDirectoriesWithin other depth path :=
  funext fun t => perform_makeDirectoriesWithin_eq_of_isAbsolute h base other depth t

/-- **Opening a file** does the same from everywhere. -/
theorem openFile_eq_of_isAbsolute : openFile base path = openFile other path := by
  unfold openFile
  rw [origin_of_isAbsolute h, origin_of_isAbsolute h]

end Tree

/-! ## Clean paths -/

namespace CleanPath

theorem rootOf_cases (path : Text) : rootOf path = [] ∨ Path.isAbsolute (rootOf path) = true := by
  unfold rootOf
  split
  · exact .inl rfl
  · exact .inr (by decide)
  · exact .inr (by decide)

theorem isAbsolute_rootOf {path : Text} (h : Path.isAbsolute path = true) :
    Path.isAbsolute (rootOf path) = true := by
  obtain ⟨rest, rfl⟩ := Path.isAbsolute_iff.mp h
  rcases rootOf_cases ('/' :: rest) with hnil | habsolute
  · -- there is a slash at the front
    unfold rootOf at hnil
    split at hnil
    · rename_i hlength
      exact absurd hlength (by simp)
    · exact absurd hnil (by simp)
    · exact absurd hnil (by simp)
  · exact habsolute

theorem isAbsolute_toPath {path : CleanPath} (h : Path.isAbsolute path.root = true) :
    Path.isAbsolute path.toPath = true := by
  obtain ⟨rest, hrest⟩ := Path.isAbsolute_iff.mp h
  have hne : ¬ (path.root = [] ∧ path.names = []) := by
    rintro ⟨hroot, -⟩
    rw [hroot] at h
    exact absurd h (by decide)
  rw [toPath, if_neg hne, hrest]
  exact Path.isAbsolute_iff.mpr ⟨_, rfl⟩

/-- A path taken from an absolute directory is absolute, be it absolute itself or not. -/
theorem isAbsolute_root_join {directory path : CleanPath}
    (h : Path.isAbsolute directory.root = true)
    (hpath : path.root = [] ∨ Path.isAbsolute path.root = true) :
    Path.isAbsolute (directory.join path).root = true := by
  unfold join
  split
  · exact h
  · rename_i hne
    exact hpath.resolve_left hne

end CleanPath

/-! ## Searching -/

namespace Search

variable {t : Tree} {path : Option Text} {command : Text} (base other : Location)

theorem root_candidate_cases (command directory : Text) :
    (candidate command directory).root = [] ∨
      Path.isAbsolute (candidate command directory).root = true := by
  unfold candidate CleanPath.join
  split
  · exact CleanPath.rootOf_cases directory
  · exact CleanPath.rootOf_cases command

/-- A candidate of an absolute directory is absolute, whatever the command is. -/
theorem isAbsolute_root_candidate {directory : Text} (h : Path.isAbsolute directory = true)
    (command : Text) : Path.isAbsolute (candidate command directory).root = true :=
  CleanPath.isAbsolute_root_join (CleanPath.isAbsolute_rootOf h) (CleanPath.rootOf_cases command)

/-- What is found is one of the candidates. -/
theorem mem_of_firstProgram_eq {candidates : List CleanPath} {found : CleanPath}
    (h : firstProgram t base candidates = .ok (some found)) : found ∈ candidates := by
  induction candidates with
  | nil => exact absurd h (by simp [firstProgram])
  | cons candidate rest ih =>
    unfold firstProgram at h
    split at h
    · exact absurd h (by simp)
    · obtain rfl := Option.some.inj (Except.ok.inj h)
      exact List.mem_cons_self
    · exact List.mem_cons_of_mem _ (ih h)

theorem firstProgram_eq_of_isAbsolute {candidates : List CleanPath}
    (h : ∀ candidate ∈ candidates, Path.isAbsolute candidate.root = true) :
    firstProgram t base candidates = firstProgram t other candidates := by
  induction candidates with
  | nil => rfl
  | cons candidate rest ih =>
    have hcandidate := CleanPath.isAbsolute_toPath (h candidate List.mem_cons_self)
    have hprobe : probe t base candidate = probe t other candidate := by
      unfold probe
      dsimp only
      rw [Tree.locate_eq_of_isAbsolute hcandidate base other]
    have hrest := ih fun candidate hmem => h candidate (List.mem_cons_of_mem _ hmem)
    rw [firstProgram, firstProgram, hprobe, hrest]

/-- **Finding a program** on a search path of absolute directories does not depend on where
the search begins. -/
theorem program_eq_of_isAbsolute
    (h : ∀ directory ∈ directories path, Path.isAbsolute directory = true) :
    program t base path command = program t other path command := by
  have hcandidates : ∀ place ∈ (directories path).map (candidate command),
      Path.isAbsolute place.root = true := by
    intro place hmem
    obtain ⟨directory, hdirectory, rfl⟩ := List.mem_map.mp hmem
    exact isAbsolute_root_candidate (h directory hdirectory) command
  have hfirst := @firstProgram_eq_of_isAbsolute t base other _ hcandidates
  unfold program
  split
  · rfl
  · rw [hfirst]
    rcases hfound : firstProgram t other ((directories path).map (candidate command)) with
      failure | _ | found
    · rfl
    · rfl
    · -- the path of what is found is absolute by itself
      have hroot : found.root ≠ [] :=
        Path.ne_nil_of_isAbsolute (hcandidates found (mem_of_firstProgram_eq other hfound))
      show Except.ok (some ((CleanPath.ofPath base.toPath).join found).toPath) =
        Except.ok (some ((CleanPath.ofPath other.toPath).join found).toPath)
      rw [CleanPath.join_of_root_ne_nil hroot, CleanPath.join_of_root_ne_nil hroot]

/-- A program that is found is told by an absolute path, wherever the search begins. -/
theorem isAbsolute_of_program_eq {executable : Text}
    (h : program t base path command = .ok (some executable)) :
    Path.isAbsolute executable = true := by
  unfold program at h
  split at h
  · exact absurd h (by simp)
  · rcases hfound : firstProgram t base ((directories path).map (candidate command)) with
      failure | _ | found <;> rw [hfound] at h
    · exact absurd h (by simp [Except.map])
    · exact absurd h (by simp [Except.map])
    · obtain ⟨directory, -, rfl⟩ := List.mem_map.mp (mem_of_firstProgram_eq base hfound)
      have hbase : Path.isAbsolute (CleanPath.ofPath base.toPath).root = true :=
        CleanPath.isAbsolute_rootOf base.isAbsolute_toPath
      obtain rfl := Option.some.inj (Except.ok.inj h)
      exact CleanPath.isAbsolute_toPath
        (CleanPath.isAbsolute_root_join hbase (root_candidate_cases command directory))

end Search
end LineShell
