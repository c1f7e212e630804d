/-
# LineShell.Proofs.Tree.Nesting -- directories that are too deep to make

Making the directories above a path goes up to the first one that is there, and only so many
levels. A path lacks `depth` directories above it if its nearest `depth` directories are all
missing (`LacksAbove`), and then nothing is made and the operation breaks
(`perform_makeDirectoriesWithin_of_lacksAbove`). A path without NUL characters breaks it in
no other way (`breaks_makeDirectoriesWithin_iff`): whatever else goes wrong with a path is a
system error.

The way up is that of the recursion. `Path.parted` takes the last name off a path, and with
it the slash behind the name, and the directory that is left is the next one to look at.
-/

import LineShell.Proofs.Action.Breaks
import LineShell.Tree.Write

namespace LineShell

/-! ## Parts of a path -/

namespace Path

/-- The directory that a path leads through last, and the last name, which a slash behind it
does not hide. -/
def parted (path : Text) : Text × Text :=
  if lastName path = [] then splitLast (directoryPart path) else splitLast path

variable {path : Text} {c : Char}

theorem mem_of_mem_withoutEndSlashes (h : c ∈ withoutEndSlashes path) : c ∈ path := by
  unfold withoutEndSlashes at h
  split at h
  · exact h
  · exact List.mem_reverse.mp ((List.dropWhile_sublist _).subset (List.mem_reverse.mp h))

/-- The directory part of a path is made of characters of the path. -/
theorem mem_of_mem_directoryPart (h : c ∈ directoryPart path) : c ∈ path := by
  have hfront := mem_of_mem_withoutEndSlashes h
  exact List.mem_reverse.mp ((List.dropWhile_sublist _).subset (List.mem_reverse.mp hfront))

theorem mem_of_mem_parted (h : c ∈ (parted path).1) : c ∈ path := by
  unfold parted at h
  split at h
  · exact mem_of_mem_directoryPart (mem_of_mem_directoryPart h)
  · exact mem_of_mem_directoryPart h

theorem nul_not_mem_join {directory : Text} (hdirectory : '\x00' ∉ directory)
    (hpath : '\x00' ∉ path) : '\x00' ∉ join directory path := by
  unfold join
  split
  · exact hpath
  · split
    · simp [hdirectory, hpath]
    · simp [hdirectory, hpath]

end Path

namespace Tree

open TreeAction

variable {t : Tree} {base : Location} {path : Text} {fault : Fault}

/-! ## Single directories -/

/-- A path without NUL characters makes a directory, or fails with a system error. -/
theorem sturdy_makeDirectory (h : '\x00' ∉ path) : Sturdy (makeDirectory base path) := by
  have hnul : ¬ path.contains '\x00' = true := by simpa using h
  unfold makeDirectory
  rw [if_neg hnul]
  refine .bind (sturdy_of_ok fun t => perform_get t) fun t => ?_
  split
  · exact sturdy_system _
  · exact sturdy_of_ok (perform_modify _)

theorem sturdy_makeDirectoryUnlessThere (h : '\x00' ∉ path) :
    Sturdy (makeDirectoryUnlessThere base path) := by
  intro t fault hbreaks
  refine sturdy_makeDirectory h t fault ((breaks_tryCatch_iff ?_ ?_).mp hbreaks)
  · intro error
    refine .bind (sturdy_of_ok fun t => perform_get t) fun t => ?_
    split
    · exact sturdy_pure _
    · exact sturdy_system error
  · intro fault hfault
    cases fault <;> first | rfl | exact absurd hfault (by simp)

/-- What is ignored is a system error, so that it makes no difference to breaking. -/
theorem breaks_ignoringExisting_iff {x : TreeAction Unit} :
    Breaks (ignoringExisting x) t fault ↔ Breaks x t fault := by
  refine breaks_tryCatch_iff (fun error => ?_) fun fault hfault => ?_
  · obtain ⟨cause, path⟩ := error
    cases cause <;> first | exact sturdy_pure () | exact sturdy_system _
  · cases fault <;> first | rfl | exact absurd hfault (by simp)

/-! ## Directories above directories -/

/-- **Lacks parent** — the path leads through a directory that is missing. -/
def LacksParent (t : Tree) (base : Location) (path : Text) : Prop :=
  (Path.parted path).1 ≠ [] ∧ (Path.parted path).2 ≠ [] ∧ t.holds base (Path.parted path).1 = false

/-- **Lacks above** — the nearest directories that a path leads through are missing, `depth`
of them at least. -/
def LacksAbove (t : Tree) (base : Location) : Nat → Text → Prop
  | 0, _ => True
  | depth + 1, path =>
    t.LacksParent base path ∧ t.LacksAbove base depth (Path.parted path).1

/-- Where the directory above is missing it is made first. -/
theorem perform_makeDirectoriesWithin_of_lacksParent (h : t.LacksParent base path) (depth : Nat) :
    (makeDirectoriesWithin base (depth + 1) path).perform t =
      (ignoringExisting (makeDirectoriesWithin base depth (Path.parted path).1) >>= fun _ =>
        if (Path.parted path).2 = ['.'] then pure ()
        else makeDirectoryUnlessThere base path).perform t := by
  have hmissing : ¬ t.holds base (Path.parted path).1 = true := by simp [h.2.2]
  rw [makeDirectoriesWithin, perform_bind, perform_get]
  exact congrArg (fun x => TreeAction.perform x t) (if_pos ⟨h.1, h.2.1, hmissing⟩)

theorem perform_makeDirectoriesWithin_of_not_lacksParent (h : ¬ t.LacksParent base path)
    (depth : Nat) : (makeDirectoriesWithin base (depth + 1) path).perform t =
      (makeDirectoryUnlessThere base path).perform t := by
  rw [makeDirectoriesWithin, perform_bind, perform_get]
  refine congrArg (fun x => TreeAction.perform x t) (if_neg fun hlacks => h ?_)
  exact ⟨hlacks.1, hlacks.2.1, Bool.not_eq_true _ ▸ hlacks.2.2⟩

/-- **Too deep** — where too many directories are missing, none is made. -/
theorem perform_makeDirectoriesWithin_of_lacksAbove {depth : Nat}
    (h : t.LacksAbove base depth path) :
    (makeDirectoriesWithin base depth path).perform t = (.error .tooDeep, t) := by
  induction depth generalizing path with
  | zero => rfl
  | succ depth ih =>
    -- the directories above come first, and their failure is passed on
    rw [perform_makeDirectoriesWithin_of_lacksParent h.1, perform_bind, ignoringExisting,
      perform_tryCatch, ih h.2]
    rfl

/-- **Not too deep** — a path without NUL characters breaks the making of directories exactly
if too many are missing. -/
theorem breaks_makeDirectoriesWithin_iff {depth : Nat} (hnul : '\x00' ∉ path) :
    Breaks (makeDirectoriesWithin base depth path) t fault ↔
      fault = .tooDeep ∧ t.LacksAbove base depth path := by
  induction depth generalizing path with
  | zero =>
    rw [makeDirectoriesWithin, breaks_iff_of_run (perform_throw .tooDeep t)]
    constructor
    · rintro ⟨hfault, -⟩
      exact ⟨(Except.error.inj hfault).symm, trivial⟩
    · rintro ⟨rfl, -⟩
      exact ⟨rfl, rfl⟩
  | succ depth ih =>
    have hsturdy := @sturdy_makeDirectoryUnlessThere base path hnul
    by_cases hparent : t.LacksParent base path
    · -- what comes behind the directories above is sturdy, so it is they that break
      have hrest : Sturdy (if (Path.parted path).2 = ['.'] then pure ()
          else makeDirectoryUnlessThere base path) := by
        split
        · exact sturdy_pure ()
        · exact hsturdy
      rw [breaks_congr (perform_makeDirectoriesWithin_of_lacksParent hparent depth),
        breaks_bind_iff fun _ => hrest, breaks_ignoringExisting_iff,
        ih fun hmem => hnul (Path.mem_of_mem_parted hmem)]
      exact and_congr_right fun _ => ⟨fun hlacks => ⟨hparent, hlacks⟩, And.right⟩
    · rw [breaks_congr (perform_makeDirectoriesWithin_of_not_lacksParent hparent depth)]
      exact iff_of_false (hsturdy t fault) fun h => hparent h.2.1

end Tree

/-! ## Paths that are too deep -/

namespace Path

/-- What stands behind the last slash is split off, and the slash is dropped. -/
theorem splitLast_append {above name : Text} (hname : '/' ∉ name) {c : Char} (hc : c ≠ '/') :
    splitLast (above ++ [c] ++ '/' :: name) = (above ++ [c], name) := by
  have hsplit : (above ++ [c] ++ '/' :: name).reverse =
      name.reverse ++ '/' :: c :: above.reverse := by simp
  have hpositive : ∀ d ∈ name.reverse, decide (d ≠ '/') = true := by
    intro d hd
    exact decide_eq_true fun h => hname (h ▸ List.mem_reverse.mp hd)
  unfold splitLast
  rw [hsplit, List.takeWhile_append_of_pos hpositive, List.dropWhile_append_of_pos hpositive]
  simp [withoutEndSlashes, hc]

/-- A path that leads through as many directories inside one another. -/
def nested : Nat → Text
  | 0 => []
  | n + 1 => '/' :: 'a' :: nested n

theorem nested_succ (n : Nat) : nested (n + 1) = nested n ++ ['/', 'a'] := by
  induction n with
  | zero => rfl
  | succ n ih => exact congrArg (fun rest => '/' :: 'a' :: rest) ih

theorem mem_nested {n : Nat} {c : Char} (h : c ∈ nested n) : c = '/' ∨ c = 'a' := by
  induction n with
  | zero => exact absurd h (by simp [nested])
  | succ n ih =>
    rcases List.mem_cons.mp h with h | h
    · exact .inl h
    · rcases List.mem_cons.mp h with h | h
      · exact .inr h
      · exact ih h

theorem splitLast_nested (n : Nat) : splitLast (nested (n + 2)) = (nested (n + 1), ['a']) := by
  have hsplit := @splitLast_append (nested n ++ ['/']) ['a'] (by simp) 'a' (by simp)
  rw [nested_succ, nested_succ]
  simpa using hsplit

theorem isAbsolute_nested (n : Nat) : isAbsolute (nested (n + 1)) = true := rfl

/-- The first step of the path enters its first directory. -/
theorem exists_steps_nested (n : Nat) : ∃ rest, steps (nested (n + 1)) = .enter ['a'] :: rest := by
  obtain ⟨others, hothers⟩ : ∃ others, Text.pieces '/' (nested n) = [] :: others := by
    cases n with
    | zero => exact ⟨[], rfl⟩
    | succ n => exact ⟨_, Text.pieces_cons_sep '/' _⟩
  have hpieces : Text.pieces '/' (nested (n + 1)) = [] :: ['a'] :: others := by
    rw [nested, Text.pieces_cons_sep]
    simp [Text.pieces, hothers]
  simp [steps, hpieces, Step.ofName]

end Path

namespace Tree

variable {t : Tree} (base : Location)

/-- Where the first directory is missing the path names nothing. -/
theorem holds_nested (h : t.at? [['a']] = none) (n : Nat) :
    t.holds base (Path.nested (n + 1)) = false := by
  obtain ⟨rest, hsteps⟩ := Path.exists_steps_nested n
  have hadvance : t.advance [] (Path.steps (Path.nested (n + 1))) = .missing [] ['a'] rest := by
    have hroot : t.isDirectory [] = true := by simp [isDirectory]
    have hshort : ¬ nameLimit < Text.byteLength ['a'] := by decide
    rw [hsteps, advance, if_pos hroot, if_neg hshort, h]
  have hfollow : t.follow linkLimit [] (Path.steps (Path.nested (n + 1))) = .error .noSuchFile := by
    rw [follow, hadvance]
  -- whether the path is too long or leads nowhere, there is nothing to be found
  obtain ⟨cause, hlocate⟩ : ∃ cause, t.locate base (Path.nested (n + 1)) = .error cause := by
    unfold locate
    rw [origin_of_isAbsolute (Path.isAbsolute_nested n), hfollow]
    split
    · exact ⟨_, rfl⟩
    · split <;> exact ⟨_, rfl⟩
  unfold holds lookUp?
  rw [hlocate]
  split <;> rfl

/-- Where the first directory is missing, so are all the others. -/
theorem lacksAbove_nested (h : t.at? [['a']] = none) {depth n : Nat} (hn : depth ≤ n) :
    t.LacksAbove base depth (Path.nested (n + 1)) := by
  induction depth generalizing n with
  | zero => trivial
  | succ depth ih =>
    obtain ⟨n, rfl⟩ : ∃ m, n = m + 1 := ⟨n - 1, by omega⟩
    have hparted : Path.parted (Path.nested (n + 2)) = (Path.nested (n + 1), ['a']) := by
      unfold Path.parted
      rw [Path.lastName, Path.splitLast_nested]
      rfl
    have hlacks : t.LacksParent base (Path.nested (n + 2)) := by
      refine ⟨?_, ?_, ?_⟩ <;> rw [hparted]
      · simp [Path.nested]
      · simp
      · exact holds_nested base h n
    refine ⟨hlacks, ?_⟩
    rw [hparted]
    exact ih (by omega)

end Tree
end LineShell
