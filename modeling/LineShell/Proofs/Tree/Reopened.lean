/-
# LineShell.Proofs.Tree.Reopened -- opening a file a second time

Opening follows its path by a rule of its own, which differs from following only for names
that are missing and for paths that ask for a directory. Where something stands that is no
directory, both rules come to the same (`placeForFile_eq_ok_iff`).

What was opened is therefore what its path names afterwards (`ready_of_perform`). Opening it
again succeeds, and the tree stays as it is (`openFile_again`).
-/

import LineShell.Proofs.Tree.Opened
import LineShell.Proofs.Tree.Ways

namespace LineShell

namespace Tree

open TreeAction

variable {t t' : Tree} {base here place : Location} {path : List Path.Step} {links : Nat}

/-- Steps break off at a name only if nothing stands there. -/
theorem at?_of_advance_eq_missing {directory : Location} {name : Text} {rest : List Path.Step}
    (h : t.advance here path = .missing directory name rest) : t.at? (name :: directory) = none := by
  induction path generalizing here with
  | nil => exact absurd h (by simp [advance])
  | cons step others ih =>
    simp only [advance] at h
    split at h
    · cases step with
      | stay => exact ih h
      | slash => exact ih h
      | up => exact ih h
      | enter other =>
        dsimp only at h
        split at h
        · exact absurd h (by simp)
        · split at h
          · rename_i hnone
            obtain ⟨rfl, rfl, -⟩ := Progress.missing.inj h
            exact hnone
          · exact absurd h (by simp)
          · exact ih h
    · exact absurd h (by simp)

/-- Steps that lead to something else than a directory do not end in a slash. -/
theorem stepsToFile_of_leads (h : t.Leads here path links place)
    (hplace : t.isDirectory place = false) : stepsToFile path = path := by
  unfold stepsToFile
  split
  · rename_i name outer hpath
    have hslash : path = (outer.reverse ++ [.enter name]) ++ [.slash] := by
      rw [← List.reverse_reverse path, hpath]
      simp
    rw [hslash, leads_append_iff] at h
    obtain ⟨mid, m, n, -, hlast, -⟩ := h
    cases hlast with
    | slash hd hrest =>
      cases hrest
      rw [hplace] at hd
      exact absurd hd (by simp)
  · rfl

/-- **Both rules agree** where something stands that is no directory. -/
theorem placeForFile_eq_ok_iff (hthere : t.at? place ≠ none)
    (hplace : t.isDirectory place = false) :
    t.placeForFile links here path = .ok place ↔ t.follow links here path = .ok place := by
  induction links using Nat.strongRecOn generalizing here path with
  | ind links ih =>
    constructor
    · intro h
      have hself := stepsToFile_eq_self hplace h
      rcases placeForFile_cases h with ha | ⟨directory, name, ha, rfl⟩ |
        ⟨directory, target, rest, fewer, rfl, ha, hrest⟩ <;> rw [hself] at ha
      · unfold follow
        rw [ha]
      · exact absurd (at?_of_advance_eq_missing ha) hthere
      · unfold follow
        rw [ha]
        exact (ih fewer (Nat.lt_succ_self fewer)).mp hrest
    · intro h
      obtain ⟨taken, -, hleads⟩ := follow_eq_ok_iff.mp h
      have hself := stepsToFile_of_leads hleads hplace
      unfold follow at h
      unfold placeForFile
      rw [hself]
      split at h
      · rename_i other ha
        rw [ha]
        exact h
      · exact absurd h (by simp)
      · exact absurd h (by simp)
      · rename_i directory target rest ha
        rw [ha]
        split at h
        · exact absurd h (by simp)
        · rename_i fewer
          exact (ih fewer (Nat.lt_succ_self fewer)).mpr h

/-! ## Opened files and devices -/

/-- **Ready** — what opening leaves for a handle at a place: an empty file, or the device. -/
def ReadyAt (t : Tree) (place : Location) : Handle → Prop
  | .file other => other = place ∧ ∃ executable, t.at? place = some (.file [] executable)
  | .device device => t.at? place = some (.device device) ∧ device ≠ .terminal

variable {target : Text} {handle : Handle}

theorem ReadyAt.not_isDirectory (h : t.ReadyAt place handle) : t.isDirectory place = false := by
  cases handle with
  | file other =>
    obtain ⟨-, executable, hfile⟩ := h
    simp [isDirectory, hfile]
  | device device =>
    obtain ⟨hdevice, -⟩ := h
    simp [isDirectory, hdevice]

theorem ReadyAt.at?_ne_none (h : t.ReadyAt place handle) : t.at? place ≠ none := by
  cases handle with
  | file other =>
    obtain ⟨-, executable, hfile⟩ := h
    simp [hfile]
  | device device =>
    obtain ⟨hdevice, -⟩ := h
    simp [hdevice]

/-- It stays ready as long as what stands at each place is the same. -/
theorem ReadyAt.congr (h : t.ReadyAt place handle) (hsame : ∀ other, t'.at? other = t.at? other) :
    t'.ReadyAt place handle := by
  cases handle with
  | file other =>
    obtain ⟨rfl, executable, hfile⟩ := h
    exact ⟨rfl, executable, (hsame other).trans hfile⟩
  | device device => exact ⟨(hsame place).trans h.1, h.2⟩

/-- What opening a path does, once it is known where the path leads. -/
theorem openFile_of_perform (h : (openFile base target).perform t = (.ok handle, t')) :
    '\x00' ∉ target ∧ target ≠ [] ∧ Text.byteLength target ≤ pathLimit ∧
      ∃ place, t.placeForFile linkLimit (origin base target) (Path.steps target) = .ok place ∧
        ((∃ executable, t.TakesFile place executable ∧ handle = .file place ∧
            t' = t.put place (.file [] executable)) ∨
          (∃ device, handle = .device device) ∧ t.ReadyAt place handle ∧ t' = t) := by
  unfold openFile at h
  dsimp only at h
  -- a path is refused first for a NUL, for being empty, and for its length
  rw [perform_guard] at h
  split at h
  · exact absurd (congrArg Prod.fst h) (by simp)
  rename_i hnul
  rw [perform_guard] at h
  split at h
  · exact absurd (congrArg Prod.fst h) (by simp)
  rename_i hne
  rw [perform_guard] at h
  split at h
  · exact absurd (congrArg Prod.fst h) (by simp)
  rename_i hlong
  rw [perform_bind, perform_get] at h
  dsimp only at h
  split at h
  · exact absurd (congrArg Prod.fst h) (by simp)
  rename_i place hplace
  refine ⟨by simpa using hnul, hne, Nat.le_of_not_lt hlong, place, hplace, ?_⟩
  split at h
  · rename_i hnone
    simp only [perform_bind, perform_set, perform_pure, Prod.mk.injEq] at h
    exact .inl ⟨false, .inl ⟨hnone, rfl⟩, (Except.ok.inj h.1).symm, h.2.symm⟩
  · rename_i text executable hfile
    simp only [perform_bind, perform_set, perform_pure, Prod.mk.injEq] at h
    exact .inl ⟨executable, .inr ⟨text, hfile⟩, (Except.ok.inj h.1).symm, h.2.symm⟩
  · exact absurd (congrArg Prod.fst h) (by simp)
  · rename_i device hterminal hdevice
    rw [perform_pure, Prod.mk.injEq] at h
    obtain rfl := Except.ok.inj h.1
    exact .inr ⟨⟨device, rfl⟩, ⟨hdevice, fun e => hterminal (e ▸ rfl)⟩, h.2.symm⟩
  · exact absurd (congrArg Prod.fst h) (by simp)

/-- What was opened is what the path names, and it is ready. -/
theorem ready_of_perform (h : (openFile base target).perform t = (.ok handle, t')) :
    ∃ place, t'.Names base target place ∧ t'.ReadyAt place handle := by
  obtain ⟨hnul, hne, hlength, place, hplace, ⟨executable, htakes, rfl, rfl⟩ | ⟨-, hready, rfl⟩⟩ :=
    openFile_of_perform h
  · have hlocate := locate_put_of_placeForFile [] hne hlength htakes hplace
    refine ⟨place, (locate_eq_ok_iff hnul).mp hlocate, rfl, executable, ?_⟩
    rw [at?_put _ _ _ _ htakes.ne_nil, if_pos rfl]
  · have hfollow := (placeForFile_eq_ok_iff hready.at?_ne_none hready.not_isDirectory).mp hplace
    exact ⟨place, ⟨hne, hnul, hlength, follow_eq_ok_iff.mp hfollow⟩, hready⟩

/-- **Opening again** — what is ready under a path is opened again, and stays ready; nothing
else changes either. -/
theorem openFile_again (h : t.Names base target place) (hready : t.ReadyAt place handle) :
    ∃ t', (openFile base target).perform t = (.ok handle, t') ∧
      ∀ other, t'.at? other = t.at? other := by
  have hplace : t.placeForFile linkLimit (origin base target) (Path.steps target) = .ok place :=
    (placeForFile_eq_ok_iff hready.at?_ne_none hready.not_isDirectory).mpr
      (follow_eq_ok_iff.mpr h.leads)
  unfold openFile
  rw [if_neg (by simpa using h.nul_not_mem), if_neg h.ne_nil,
    if_neg (Nat.not_lt_of_le h.byteLength_le), perform_bind, perform_get]
  dsimp only
  rw [hplace]
  dsimp only
  cases handle with
  | file other =>
    obtain ⟨rfl, executable, hfile⟩ := hready
    rw [hfile]
    refine ⟨_, rfl, fun place => ?_⟩
    rw [at?_put _ _ _ _ (TakesFile.ne_nil (.inr ⟨[], hfile⟩))]
    split
    · rename_i e
      rw [e, hfile]
    · rfl
  | device device =>
    obtain ⟨hdevice, hterminal⟩ := hready
    refine ⟨t, ?_, fun place => rfl⟩
    rw [hdevice]
    cases device with
    | terminal => exact absurd rfl hterminal
    | null => rfl
    | full => rfl
    | zero => rfl
    | descriptor number => rfl

end Tree

end LineShell
