/-
# LineShell.Proofs.Tree.Grown -- where making directories lets a tree grow

Making the directories of a path changes nothing that stands in the tree. What is new are
directories, and a front of the path names each of them (`Grown`). This holds whether the
operation succeeds or fails half-way, since every step of it either leaves the tree alone or
puts one directory where its own path leads (`makeDirectory_cases`), and the paths of the
steps are fronts of the path (`grown_makeDirectoriesWithin`).

Where exactly a directory is put is told by the way to it: the moves of the path lead to a
directory, all but the last one, which enters a name that is not there
(`TakesDirectory`). A path that names a directory is not like that, and making
its directories does nothing (`perform_makeDirectories_of_names`).
-/

import LineShell.Proofs.Tree.Parts

namespace LineShell

/-- A slash is no move. -/
theorem Path.filter_steps (path : Text) : (steps path).filter (· ≠ .slash) = moves path := by
  have hmoves : (moves path).filter (· ≠ .slash) = moves path := by
    rw [List.filter_eq_self]
    intro step hstep
    obtain ⟨name, -, rfl⟩ := List.mem_map.mp hstep
    unfold Step.ofName
    split
    · rfl
    · split <;> rfl
  rw [steps_eq_moves_append, List.filter_append, hmoves]
  split
  · exact List.append_nil _
  · exact List.append_nil _

namespace Tree

open TreeAction

variable {t t' t'' : Tree} {base place : Location} {path front : Text}

/-! ## Growing -/

/-- **Grown** — nothing is different but that directories are new, and a front of the path
names each of them. -/
structure Grown (base : Location) (path : Text) (t t' : Tree) : Prop where
  frame : Frame [] t t'
  named : ∀ {place}, t.at? place = none → t'.at? place ≠ none →
    ∃ front, front <+: path ∧ t'.Names base front place

namespace Grown

theorem refl (base : Location) (path : Text) (t : Tree) : Grown base path t t where
  frame := .refl [] t
  named hold hnew := absurd hold hnew

theorem trans (h : Grown base path t t') (h' : Grown base path t' t'') :
    Grown base path t t'' where
  frame := h.frame.trans h'.frame
  named := by
    intro place hold hnew
    by_cases hmid : t'.at? place = none
    · exact h'.named hmid hnew
    · -- what was new before is named as before
      obtain ⟨front, hfront, hnames⟩ := h.named hold hmid
      exact ⟨front, hfront, hnames.frame h'.frame⟩

theorem mono (h : Grown base front t t') (hfront : front <+: path) : Grown base path t t' where
  frame := h.frame
  named hold hnew := by
    obtain ⟨first, hfirst, hnames⟩ := h.named hold hnew
    exact ⟨first, hfirst.trans hfront, hnames⟩

end Grown

/-! ## The place of a directory -/

/-- Steps that end in staying lead to directories. -/
theorem follow_append_stay_eq_ok_iff {here : Location} {outer : List Path.Step} :
    t.follow linkLimit here (outer ++ [.stay]) = .ok place ↔
      t.isDirectory place ∧ ∃ links ≤ linkLimit, t.Leads here outer links place := by
  rw [follow_eq_ok_iff]
  constructor
  · rintro ⟨links, hle, h⟩
    obtain ⟨mid, m, n, hmid, hstay, rfl⟩ := leads_append_iff.mp h
    cases hstay with
    | stay hd hrest =>
      cases hrest
      exact ⟨hd, m, hle, hmid⟩
  · rintro ⟨hd, links, hle, h⟩
    exact ⟨links, hle, h.append (.stay hd (.done place))⟩

/-- **A place for a directory** — the moves of the path lead to a directory, and then the last
one enters a name that is not there. -/
structure TakesDirectory (t : Tree) (base : Location) (path : Text) (name : Text)
    (parent : Location) : Prop where
  byteLength_le : Text.byteLength path ≤ pathLimit
  leads : ∃ outer, Path.moves path = outer ++ [.enter name] ∧
    ∃ links ≤ linkLimit, t.Leads (origin base path) outer links parent
  isDirectory : t.isDirectory parent
  name_byteLength_le : Text.byteLength name ≤ nameLimit
  free : t.at? (name :: parent) = none

theorem takesDirectory_of_placeForDirectory (h : t.placeForDirectory base path = .ok place) :
    ∃ name parent, place = name :: parent ∧ t.TakesDirectory base path name parent := by
  rw [placeForDirectory, Path.filter_steps] at h
  split at h
  · exact absurd h (by simp)
  rename_i hshort
  split at h
  · rename_i name outer hmoves
    have hmoves : Path.moves path = outer.reverse ++ [.enter name] := by
      rw [← List.reverse_reverse (Path.moves path), hmoves, List.reverse_cons]
    split at h
    · exact absurd h (by simp)
    rename_i parent hparent
    obtain ⟨hd, hleads⟩ := follow_append_stay_eq_ok_iff.mp hparent
    split at h
    · exact absurd h (by simp)
    rename_i hname
    split at h
    · exact absurd h (by simp)
    rename_i hfree
    refine ⟨name, parent, (Except.ok.inj h).symm, ?_⟩
    exact ⟨Nat.le_of_not_lt hshort, ⟨outer.reverse, hmoves, hleads⟩, hd, Nat.le_of_not_lt hname,
      by simpa using hfree⟩
  · -- a path without a last name makes no directory
    split at h
    · exact absurd h (by simp)
    · exact absurd h (by simp)

theorem TakesDirectory.placeForDirectory_eq {name : Text} {parent : Location}
    (h : t.TakesDirectory base path name parent) :
    t.placeForDirectory base path = .ok (name :: parent) := by
  obtain ⟨outer, hmoves, hleads⟩ := h.leads
  have hfollow := follow_append_stay_eq_ok_iff.mpr ⟨h.isDirectory, hleads⟩
  have hlast : (Path.moves path).reverse = .enter name :: outer.reverse := by
    rw [hmoves, List.reverse_append]
    rfl
  rw [placeForDirectory, Path.filter_steps, if_neg (Nat.not_lt_of_le h.byteLength_le), hlast]
  dsimp only
  rw [List.reverse_reverse, hfollow]
  dsimp only
  rw [if_neg (Nat.not_lt_of_le h.name_byteLength_le), h.free]
  rfl

namespace TakesDirectory

variable {name : Text} {parent : Location}

/-- A directory that is put in its place is what the path names. -/
theorem names_put (h : t.TakesDirectory base path name parent) (hnul : '\x00' ∉ path) :
    (t.put (name :: parent) .directory).Names base path (name :: parent) := by
  obtain ⟨outer, hmoves, links, hle, hleads⟩ := h.leads
  have hframe : Frame [] t (t.put (name :: parent) .directory) := frame_put_directory h.free
  have hentry : (t.put (name :: parent) .directory).at? (name :: parent) = some .directory := by
    rw [at?_put _ _ _ _ (List.cons_ne_nil _ _), if_pos rfl]
  have hd : (t.put (name :: parent) .directory).isDirectory (name :: parent) := by
    simpa [Tree.isDirectory] using hentry
  refine ⟨?_, hnul, h.byteLength_le, links, hle, ?_⟩
  · rintro rfl
    exact absurd hmoves.symm (by simp [Path.moves, Text.pieces])
  · rw [leads_steps_iff hd, hmoves]
    exact (hleads.frame hframe).enter_last (hframe.isDirectory h.isDirectory) h.name_byteLength_le
      hentry (by simp)

theorem grown_put (h : t.TakesDirectory base path name parent) (hnul : '\x00' ∉ path) :
    Grown base path t (t.put (name :: parent) .directory) where
  frame := frame_put_directory h.free
  named := by
    intro place hold hnew
    rw [at?_put _ _ _ _ (List.cons_ne_nil _ _)] at hnew
    split at hnew
    · rename_i hplace
      rw [hplace]
      exact ⟨path, List.prefix_rfl, h.names_put hnul⟩
    · exact absurd hold hnew

/-- A path that names a directory is no place for one. -/
theorem not_names (h : t.TakesDirectory base path name parent) (hd : t.isDirectory place) :
    ¬ t.Names base path place := by
  intro hnames
  obtain ⟨outer, hmoves, m, -, hparent⟩ := h.leads
  obtain ⟨links, -, hleads⟩ := hnames.leads
  rw [leads_steps_iff hd, hmoves, leads_append_iff] at hleads
  obtain ⟨mid, m', n, hmid, hlast, -⟩ := hleads
  obtain rfl := hmid.functional hparent
  -- the last name would be entered
  cases hlast with
  | enter _ _ hentry _ _ =>
    rw [h.free] at hentry
    exact absurd hentry (by simp)
  | link _ _ hentry _ =>
    rw [h.free] at hentry
    exact absurd hentry (by simp)

end TakesDirectory

/-! ## Single directories -/

/-- Making a directory fails and leaves the tree alone, or puts the directory in its place. -/
theorem makeDirectory_cases (base : Location) (path : Text) (t : Tree) :
    (∃ fault, (makeDirectory base path).perform t = (.error fault, t)) ∨
      ∃ name parent, '\x00' ∉ path ∧ t.TakesDirectory base path name parent ∧
        (makeDirectory base path).perform t = (.ok (), t.put (name :: parent) .directory) := by
  unfold makeDirectory
  dsimp only
  rw [perform_guard]
  split
  · exact .inl ⟨_, rfl⟩
  rename_i hnul
  rw [List.contains_iff_mem] at hnul
  rw [perform_bind, perform_get]
  dsimp only
  split
  · exact .inl ⟨_, rfl⟩
  · rename_i place hplace
    obtain ⟨name, parent, rfl, htakes⟩ := takesDirectory_of_placeForDirectory hplace
    exact .inr ⟨name, parent, hnul, htakes, rfl⟩

theorem perform_makeDirectory_of_takesDirectory {name : Text} {parent : Location}
    (h : t.TakesDirectory base path name parent) (hnul : '\x00' ∉ path) :
    (makeDirectory base path).perform t = (.ok (), t.put (name :: parent) .directory) := by
  unfold makeDirectory
  rw [if_neg (by simpa using hnul), perform_bind, perform_get]
  dsimp only
  rw [h.placeForDirectory_eq]
  rfl

theorem grown_makeDirectoryUnlessThere (base : Location) (path : Text) (t : Tree) :
    Grown base path t ((makeDirectoryUnlessThere base path).perform t).2 := by
  rw [makeDirectoryUnlessThere, perform_tryCatch]
  rcases makeDirectory_cases base path t with ⟨fault, hfail⟩ | ⟨name, parent, hnul, htakes, hmake⟩
  · -- a failure changes nothing, whether it is passed on or not
    rw [hfail]
    cases fault with
    | system error =>
      simp only [perform_bind, perform_get]
      split
      · exact .refl base path t
      · exact .refl base path t
    | embeddedNul => exact .refl base path t
    | badVariableName => exact .refl base path t
    | tooDeep => exact .refl base path t
  · rw [hmake]
    exact htakes.grown_put hnul

/-- Where a directory is, making it does nothing. -/
theorem perform_makeDirectoryUnlessThere_of_names (h : t.Names base path place)
    (hd : t.isDirectory place) : (makeDirectoryUnlessThere base path).perform t = (.ok (), t) := by
  rw [makeDirectoryUnlessThere, perform_tryCatch]
  rcases makeDirectory_cases base path t with ⟨fault, hfail⟩ | ⟨name, parent, -, htakes, -⟩
  · have hsystem : fault.isSystem = true := by
      by_contra hbreaks
      apply sturdy_makeDirectory h.nul_not_mem t fault
      exact ⟨congrArg Prod.fst hfail, by simpa using hbreaks⟩
    obtain ⟨error, rfl⟩ := Fault.exists_system hsystem
    have hthere : t.holdsDirectory base path = true := holdsDirectory_iff.mpr ⟨place, h, hd⟩
    rw [hfail]
    simp only [perform_bind, perform_get, hthere, if_true, perform_pure]
  · exact absurd h (htakes.not_names hd)

/-! ## All directories of a path -/

/-- Whether a failure is ignored makes no difference to the tree. -/
theorem snd_perform_ignoringExisting (x : TreeAction Unit) (t : Tree) :
    ((ignoringExisting x).perform t).2 = (x.perform t).2 := by
  rw [ignoringExisting, perform_tryCatch]
  rcases x.perform t with ⟨fault | _, t'⟩
  · dsimp only
    split
    · rfl
    · rfl
  · rfl

/-- **Growing** — making the directories of a path adds nothing but directories that its
fronts name, also when it fails. -/
theorem grown_makeDirectoriesWithin (base : Location) (depth : Nat) (path : Text) (t : Tree) :
    Grown base path t ((makeDirectoriesWithin base depth path).perform t).2 := by
  induction depth generalizing path t with
  | zero => exact .refl base path t
  | succ depth ih =>
    by_cases hlacks : t.LacksParent base path
    · -- the directories above come first, on a front of the path
      have habove := (ih (Path.parted path).1 t).mono (Path.parted_prefix_self path)
      rw [← snd_perform_ignoringExisting] at habove
      have hlast : ∀ t', Grown base path t' ((if (Path.parted path).2 = ['.'] then pure ()
          else makeDirectoryUnlessThere base path : TreeAction Unit).perform t').2 := by
        intro t'
        split
        · exact .refl base path t'
        · exact grown_makeDirectoryUnlessThere base path t'
      rw [perform_makeDirectoriesWithin_of_lacksParent hlacks, perform_bind]
      rcases hmade : (ignoringExisting (makeDirectoriesWithin base depth
        (Path.parted path).1)).perform t with ⟨fault | _, t₁⟩ <;> rw [hmade] at habove
      · exact habove
      · exact habove.trans (hlast t₁)
    · rw [perform_makeDirectoriesWithin_of_not_lacksParent hlacks]
      exact grown_makeDirectoryUnlessThere base path t

/-- Where the path names a directory there is nothing to make. -/
theorem perform_makeDirectoriesWithin_of_names (h : t.Names base path place)
    (hd : t.isDirectory place) (depth : Nat) :
    (makeDirectoriesWithin base (depth + 1) path).perform t = (.ok (), t) := by
  rw [perform_makeDirectoriesWithin_of_not_lacksParent (not_lacksParent_of_names h)]
  exact perform_makeDirectoryUnlessThere_of_names h hd

end Tree

end LineShell
