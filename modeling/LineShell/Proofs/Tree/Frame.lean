/-
# LineShell.Proofs.Tree.Frame -- what the operations on a tree leave alone

A frame says what happened to a tree by what did not: `Frame places t t'` means that
everything in `t` still stands in `t'` as an entry of the same kind, and that outside
`places` nothing is new but directories where nothing stood. Frames begin with doing
nothing, follow one another and may be widened, so the frame of an operation is put
together from those of its parts.

Making directories has the empty frame, whatever becomes of it (`framed_makeDirectoriesWithin`).
Opening a file either leaves the tree alone or puts an empty file at one location, where a
file was or nothing (`openFile_cases`). Writing to a file has the frame of its location.
-/

import LineShell.Proofs.Action.Breaks

namespace LineShell

/-- The entry without the text that it holds. Entries of the same kind differ in nothing
else. -/
def Entry.emptied : Entry → Entry
  | .file _ executable => .file [] executable
  | entry => entry

namespace Tree

/-! ## Frames -/

/-- **Frame** — every entry is kept but for the texts at some locations; elsewhere only
directories are new. -/
structure Frame (places : List Location) (t t' : Tree) : Prop where
  kept : ∀ {place entry}, t.at? place = some entry →
    (t'.at? place).map Entry.emptied = some entry.emptied
  outside : ∀ {place}, place ∉ places →
    t'.at? place = t.at? place ∨ t.at? place = none ∧ t'.at? place = some .directory

namespace Frame

variable {places more : List Location} {t t' t'' : Tree} {place : Location}

theorem refl (places : List Location) (t : Tree) : Frame places t t where
  kept h := by rw [h]; rfl
  outside _ := .inl rfl

/-- Something of the same kind stands where something stood. -/
theorem exists_entry (h : Frame places t t') {entry : Entry} (he : t.at? place = some entry) :
    ∃ entry', t'.at? place = some entry' ∧ entry'.emptied = entry.emptied :=
  Option.map_eq_some_iff.mp (h.kept he)

theorem trans (h : Frame places t t') (h' : Frame more t' t'') :
    Frame (places ++ more) t t'' where
  kept he := by
    obtain ⟨entry, hmid, hsame⟩ := h.exists_entry he
    rw [h'.kept hmid, hsame]
  outside hp := by
    rw [List.mem_append, not_or] at hp
    rcases h'.outside hp.2 with hlast | ⟨hmid, hnew⟩
    · rw [hlast]
      exact h.outside hp.1
    · rcases h.outside hp.1 with hfirst | ⟨-, hd⟩
      · exact .inr ⟨hfirst ▸ hmid, hnew⟩
      · rw [hmid] at hd
        exact absurd hd (by simp)

/-- A frame may be widened. -/
theorem mono (h : Frame places t t') (hsub : ∀ p ∈ places, p ∈ more) : Frame more t t' where
  kept := h.kept
  outside hp := h.outside fun hm => hp (hsub _ hm)

/-- What is no file is kept as it is. -/
theorem at?_of_not_file (h : Frame places t t') {entry : Entry}
    (he : t.at? place = some entry) (hfile : ∀ text executable, entry ≠ .file text executable) :
    t'.at? place = some entry := by
  obtain ⟨entry', he', hsame⟩ := h.exists_entry he
  rw [he']
  cases entry with
  | file text executable => exact absurd rfl (hfile text executable)
  | directory => cases entry' <;> simp_all [Entry.emptied]
  | link target => cases entry' <;> simp_all [Entry.emptied]
  | device device => cases entry' <;> simp_all [Entry.emptied]

/-- Directories are never lost. -/
theorem isDirectory (h : Frame places t t') (hd : t.isDirectory place) :
    t'.isDirectory place := by
  simp only [Tree.isDirectory, decide_eq_true_eq] at hd ⊢
  exact h.at?_of_not_file hd (by simp)

/-- A file outside the frame keeps its text. -/
theorem at?_file (h : Frame places t t') (hp : place ∉ places) {text : Text}
    {executable : Bool} (hf : t.at? place = some (.file text executable)) :
    t'.at? place = some (.file text executable) := by
  rcases h.outside hp with he | ⟨hnone, -⟩
  · rw [he, hf]
  · rw [hf] at hnone
    exact absurd hnone (by simp)

end Frame

/-! ## Putting one entry -/

theorem ne_nil_of_at?_eq_none {t : Tree} {place : Location} (h : t.at? place = none) :
    place ≠ [] := by
  rintro rfl
  simp at h

theorem frame_put_directory {t : Tree} {place : Location} (h : t.at? place = none) :
    Frame [] t (t.put place .directory) where
  kept {other entry} he := by
    have hne : other ≠ place := by
      rintro rfl
      rw [h] at he
      exact absurd he (by simp)
    rw [at?_put _ _ _ _ (ne_nil_of_at?_eq_none h), if_neg hne, he]
    rfl
  outside {other} _ := by
    rw [at?_put _ _ _ _ (ne_nil_of_at?_eq_none h)]
    split
    · rename_i e
      exact .inr ⟨e ▸ h, rfl⟩
    · exact .inl rfl

/-- **A place for a file** — a file stands there already, executable or not, or nothing. -/
def TakesFile (t : Tree) (place : Location) (executable : Bool) : Prop :=
  t.at? place = none ∧ executable = false ∨ ∃ text, t.at? place = some (.file text executable)

theorem TakesFile.ne_nil {t : Tree} {place : Location} {executable : Bool}
    (h : t.TakesFile place executable) : place ≠ [] := by
  rintro rfl
  rcases h with ⟨h, -⟩ | ⟨text, h⟩
  · simp at h
  · simp at h

/-- No directory is where a file can be put. -/
theorem TakesFile.not_isDirectory {t : Tree} {place : Location} {executable : Bool}
    (h : t.TakesFile place executable) : t.isDirectory place = false := by
  rcases h with ⟨h, -⟩ | ⟨text, h⟩
  · simp [isDirectory, h]
  · simp [isDirectory, h]

theorem frame_put_file {t : Tree} {place : Location} {executable : Bool}
    (h : t.TakesFile place executable) (text : Text) :
    Frame [place] t (t.put place (.file text executable)) where
  kept {other entry} he := by
    rw [at?_put _ _ _ _ h.ne_nil]
    split
    · rename_i e
      subst e
      rcases h with ⟨h, -⟩ | ⟨old, h⟩
      · rw [h] at he
        exact absurd he (by simp)
      · rw [h, Option.some.injEq] at he
        subst he
        rfl
    · rw [he]
      rfl
  outside {other} hp := by
    rw [at?_put _ _ _ _ h.ne_nil, if_neg (by simpa using hp)]
    exact .inl rfl

/-- Writing to a file keeps all the others. -/
theorem frame_writeFile (t : Tree) (place : Location) (early : Nat) (text : Text) :
    Frame [place] t (t.writeFile place early text) := by
  unfold writeFile
  split
  · rename_i held executable h
    exact frame_put_file (.inr ⟨held, h⟩) _
  · exact .refl _ _

/-- An empty file holds afterwards what is written to it. -/
theorem at?_writeFile_of_empty {t : Tree} {place : Location} {executable : Bool}
    (h : t.at? place = some (.file [] executable)) (early : Nat) (text : Text) :
    (t.writeFile place early text).at? place = some (.file text executable) := by
  have hne : place ≠ [] := TakesFile.ne_nil (.inr ⟨[], h⟩)
  simp only [writeFile, h, Text.overlay_nil]
  rw [at?_put _ _ _ _ hne, if_pos rfl]

end Tree

/-! ## Operations with the empty frame -/

namespace TreeAction

/-- **Framed** — whatever becomes of the operation, nothing but directories is new. -/
def Framed {α : Type} (x : TreeAction α) : Prop := ∀ t, Tree.Frame [] t (x.perform t).2

variable {α β : Type}

theorem framed_pure (a : α) : Framed (pure a) := fun t => .refl [] t

theorem framed_throw (fault : Fault) : Framed (throw fault : TreeAction α) := fun t => .refl [] t

theorem framed_get : Framed get := fun t => .refl [] t

theorem Framed.bind {x : TreeAction α} {f : α → TreeAction β} (hx : x.Framed)
    (hf : ∀ a, (f a).Framed) : Framed (x >>= f) := by
  intro t
  have first := hx t
  rw [perform_bind]
  rcases h : x.perform t with ⟨_ | a, t'⟩
  · simpa only [h] using first
  · rw [h] at first
    exact first.trans (hf a t')

theorem Framed.tryCatch {x : TreeAction α} {handle : Fault → TreeAction α} (hx : x.Framed)
    (hf : ∀ fault, (handle fault).Framed) : Framed (tryCatch x handle) := by
  intro t
  have first := hx t
  rw [perform_tryCatch]
  rcases h : x.perform t with ⟨fault | _, t'⟩
  · rw [h] at first
    exact first.trans (hf fault t')
  · simpa only [h] using first

theorem Framed.ite {x y : TreeAction α} {p : Prop} [Decidable p] (hx : x.Framed)
    (hy : y.Framed) : Framed (if p then x else y) := by
  split
  · exact hx
  · exact hy

end TreeAction

namespace Tree

open TreeAction

/-- A directory is put where nothing stands. -/
theorem at?_of_placeForDirectory {t : Tree} {base place : Location} {path : Text}
    (h : t.placeForDirectory base path = .ok place) : t.at? place = none := by
  unfold placeForDirectory at h
  split at h
  · simp at h
  · split at h
    · split at h
      · simp at h
      · split at h
        · simp at h
        · split at h
          · simp at h
          · rename_i hfree
            rw [Except.ok.injEq] at h
            subst h
            simpa using hfree
    · split at h <;> simp at h

theorem framed_makeDirectory (base : Location) (path : Text) :
    Framed (makeDirectory base path) := by
  intro t
  unfold makeDirectory
  dsimp only
  rw [perform_guard]
  split
  · exact .refl [] t
  rw [perform_bind, perform_get]
  dsimp only
  split
  · exact .refl [] t
  · rename_i place h
    exact frame_put_directory (at?_of_placeForDirectory h)

theorem framed_makeDirectoryUnlessThere (base : Location) (path : Text) :
    Framed (makeDirectoryUnlessThere base path) := by
  refine .tryCatch (framed_makeDirectory base path) fun fault => ?_
  cases fault with
  | system error => exact .bind framed_get fun t => .ite (framed_pure _) (framed_throw _)
  | embeddedNul => exact framed_throw _
  | badVariableName => exact framed_throw _
  | tooDeep => exact framed_throw _

theorem framed_ignoringExisting {x : TreeAction Unit} (hx : x.Framed) :
    Framed (ignoringExisting x) := by
  refine .tryCatch hx fun fault => ?_
  split
  · exact framed_pure _
  · exact framed_throw _

/-- **Making directories** changes nothing that stands in the tree, also when it fails. -/
theorem framed_makeDirectoriesWithin (base : Location) (depth : Nat) (path : Text) :
    Framed (makeDirectoriesWithin base depth path) := by
  induction depth generalizing path with
  | zero => exact framed_throw _
  | succ depth ih =>
    refine .bind framed_get fun t => .ite (.bind (framed_ignoringExisting (ih _)) fun _ => ?_) ?_
    · exact .ite (framed_pure _) (framed_makeDirectoryUnlessThere base path)
    · exact framed_makeDirectoryUnlessThere base path

/-! ## Opening a file -/

/-- **Opening a file** fails or opens a device, and then the tree stays; or it puts an empty
file where the path leads. It fails with a system error, unless the path has a NUL
character. -/
theorem openFile_cases (base : Location) (path : Text) (t : Tree) :
    (∃ fault, (openFile base path).perform t = (.error fault, t) ∧
      ('\x00' ∉ path → fault.isSystem = true)) ∨
    (∃ device, (openFile base path).perform t = (.ok (.device device), t)) ∨
    ∃ place executable, t.TakesFile place executable ∧
      t.placeForFile linkLimit (origin base path) (Path.steps path) = .ok place ∧
      path ≠ [] ∧ Text.byteLength path ≤ pathLimit ∧
      (openFile base path).perform t = (.ok (.file place), t.put place (.file [] executable)) := by
  unfold openFile
  dsimp only
  -- a path is refused first for a NUL, for being empty, and for its length
  rw [perform_guard]
  split
  · rename_i hnul
    exact .inl ⟨_, rfl, fun h => absurd (List.contains_iff_mem.mp hnul) h⟩
  rw [perform_guard]
  split
  · exact .inl ⟨_, rfl, fun _ => rfl⟩
  rename_i hne
  rw [perform_guard]
  split
  · exact .inl ⟨_, rfl, fun _ => rfl⟩
  rename_i hlong
  rw [perform_bind, perform_get]
  dsimp only
  split
  · exact .inl ⟨_, rfl, fun _ => rfl⟩
  rename_i place hplace
  -- then what stands at its place decides: nothing and a file are opened as empty files
  split
  · rename_i hnone
    refine .inr (.inr ⟨place, false, .inl ⟨hnone, rfl⟩, hplace, hne, Nat.le_of_not_lt hlong, ?_⟩)
    simp only [perform_bind, perform_set, perform_pure]
  · rename_i text executable hfile
    refine .inr (.inr ⟨place, executable, .inr ⟨text, hfile⟩, hplace, hne,
      Nat.le_of_not_lt hlong, ?_⟩)
    simp only [perform_bind, perform_set, perform_pure]
  · exact .inl ⟨_, rfl, fun _ => rfl⟩
  · exact .inr (.inl ⟨_, rfl⟩)
  · exact .inl ⟨_, rfl, fun _ => rfl⟩

end Tree
end LineShell
