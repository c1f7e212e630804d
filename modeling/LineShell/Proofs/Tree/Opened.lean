/-
# LineShell.Proofs.Tree.Opened -- a file is opened where its path leads

Opening a file follows its path by a rule of its own, since the last name may be missing
and a link may point to a missing file. Once the file is there, the path leads to it in
the ordinary sense, links followed to the end (`locate_put_of_placeForFile`).

Two facts carry the proof. Putting a file where a file was or nothing changes how far
steps lead only where they found that name missing (`advance_put`). And a path that asks
for a directory at its end is never opened: steps that end in staying arrive at a
directory or do not arrive (`advance_append_stay`), so the special treatment of a slash at
the end never gives a file.

Where a path leads does not depend on what files hold (`locate_of_sameShape`), so writing
to a file leads no path elsewhere.
-/

import LineShell.Proofs.Tree.Frame

namespace LineShell
namespace Tree

/-! ## Texts do not matter for following paths -/

/-- **Same shape** — the same entries at the same locations, up to the texts of files. -/
def SameShape (t t' : Tree) : Prop :=
  ∀ place, (t.at? place).map Entry.emptied = (t'.at? place).map Entry.emptied

namespace SameShape

variable {t t' : Tree}

theorem at?_directory_iff (h : SameShape t t') (place : Location) :
    t.at? place = some .directory ↔ t'.at? place = some .directory := by
  have := h place
  rcases ht : t.at? place with _ | e <;> rcases ht' : t'.at? place with _ | e' <;>
    simp only [ht, ht', Option.map_none, Option.map_some, reduceCtorEq, Option.some.injEq] at this ⊢
  cases e <;> cases e' <;> simp_all [Entry.emptied]

theorem isDirectory_eq (h : SameShape t t') (place : Location) :
    t.isDirectory place = t'.isDirectory place := by
  simp only [isDirectory, h.at?_directory_iff place]

theorem advance_eq (h : SameShape t t') (here : Location) (path : List Path.Step) :
    t.advance here path = t'.advance here path := by
  induction path generalizing here with
  | nil => rfl
  | cons step rest ih =>
    simp only [advance, h.isDirectory_eq here]
    split
    · cases step with
      | stay => exact ih here
      | slash => exact ih here
      | up => exact ih here.tail
      | enter name =>
        have hentry := h (name :: here)
        dsimp only
        split
        · rfl
        · -- entries of one shape differ in the texts of files only, which a step does not read
          rcases ht : t.at? (name :: here) with _ | e <;>
            rcases ht' : t'.at? (name :: here) with _ | e' <;> simp only [ht, ht'] at hentry
          · rfl
          · simp at hentry
          · simp at hentry
          · cases e <;> cases e' <;> simp_all [Entry.emptied]
    · rfl

theorem follow_eq (h : SameShape t t') (links : Nat) (here : Location)
    (path : List Path.Step) : t.follow links here path = t'.follow links here path := by
  induction links generalizing here path with
  | zero =>
    unfold follow
    rw [h.advance_eq]
  | succ links ih =>
    unfold follow
    rw [h.advance_eq]
    split
    · rfl
    · rfl
    · rfl
    · exact ih _ _

/-- A path leads to the same location in trees of the same shape. -/
theorem locate_eq (h : SameShape t t') (base : Location) (path : Text) :
    t.locate base path = t'.locate base path := by
  unfold locate
  split
  · rfl
  · split
    · rfl
    · exact h.follow_eq _ _ _

end SameShape

/-- Writing to a file keeps the shape of the tree. -/
theorem sameShape_writeFile (t : Tree) (place : Location) (early : Nat) (text : Text) :
    SameShape t (t.writeFile place early text) := by
  intro other
  unfold writeFile
  split
  · rename_i held executable h
    rw [at?_put _ _ _ _ (TakesFile.ne_nil (.inr ⟨held, h⟩))]
    split
    · rename_i e
      rw [e, h]
      rfl
    · rfl
  · rfl

/-! ## Steps in a tree with one more file -/

section Put

variable {t : Tree} {place : Location} {executable : Bool} {text : Text}

theorem isDirectory_put_file (h : t.TakesFile place executable) (other : Location) :
    (t.put place (.file text executable)).isDirectory other = t.isDirectory other := by
  simp only [isDirectory]
  rw [at?_put _ _ _ _ h.ne_nil]
  split
  · rename_i e
    subst e
    simpa [isDirectory] using h.not_isDirectory.symm
  · rfl

/-- With a file at `place` the steps lead as far as before, unless they found it missing. -/
theorem advance_put (h : t.TakesFile place executable) (here : Location)
    (path : List Path.Step) :
    (t.put place (.file text executable)).advance here path =
      match t.advance here path with
      | .missing directory name rest =>
        if name :: directory = place then (t.put place (.file text executable)).advance place rest
        else .missing directory name rest
      | progress => progress := by
  induction path generalizing here with
  | nil => rfl
  | cons step rest ih =>
    simp only [advance, isDirectory_put_file h here]
    split
    · cases step with
      | stay => exact ih here
      | slash => exact ih here
      | up => exact ih here.tail
      | enter name =>
        dsimp only
        split
        · rfl
        · rw [at?_put _ _ _ _ h.ne_nil]
          by_cases e : name :: here = place
          · -- this is the file itself: it was missing, or it was a file already
            rw [if_pos e]
            rcases h with ⟨hnone, -⟩ | ⟨old, hfile⟩
            · rw [e, hnone]
              simp [e]
            · rw [e, hfile]
              exact ih place
          · rw [if_neg e]
            rcases t.at? (name :: here) with _ | entry
            · simp [e]
            · cases entry with
              | link target => rfl
              | directory => exact ih _
              | file _ _ => exact ih _
              | device _ => exact ih _
    · rfl

end Put

/-! ## Paths that ask for a directory -/

/-- Steps that end in staying arrive at a directory; if they break off before, staying is
among the steps that are left. -/
theorem advance_append_stay (t : Tree) (here : Location) (outer : List Path.Step) :
    match t.advance here (outer ++ [.stay]) with
    | .arrived place => t.isDirectory place = true
    | .missing _ _ rest => ∃ others, rest = others ++ [.stay]
    | .atLink _ _ rest => ∃ others, rest = others ++ [.stay]
    | .blocked _ => True := by
  induction outer generalizing here with
  | nil =>
    by_cases hd : t.isDirectory here
    · simp [advance, hd]
    · simp [advance, hd]
  | cons step rest ih =>
    by_cases hd : t.isDirectory here
    · simp only [List.cons_append, advance, hd, if_true]
      cases step with
      | stay => exact ih here
      | slash => exact ih here
      | up => exact ih here.tail
      | enter name =>
        dsimp only
        by_cases hn : nameLimit < Text.byteLength name
        · simp [hn]
        · simp only [hn, if_false]
          rcases t.at? (name :: here) with _ | entry
          · exact ⟨rest, rfl⟩
          · cases entry with
            | link target => exact ⟨rest, rfl⟩
            | directory => exact ih _
            | file _ _ => exact ih _
            | device _ => exact ih _
    · simp [advance, hd]

theorem stepsToFile_append_stay (outer : List Path.Step) :
    stepsToFile (outer ++ [.stay]) = outer ++ [.stay] := by
  simp [stepsToFile]

theorem stepsToFile_cases (path : List Path.Step) :
    stepsToFile path = path ∨ ∃ outer, stepsToFile path = outer ++ [.stay] := by
  unfold stepsToFile
  split
  · exact .inr ⟨_, rfl⟩
  · exact .inl rfl

/-- The ways to a place for a file: the steps arrive there, they miss only the last name, or
they come to a link and the steps behind it lead there. -/
theorem placeForFile_cases {t : Tree} {links : Nat} {here place : Location}
    {path : List Path.Step} (h : t.placeForFile links here path = .ok place) :
    t.advance here (stepsToFile path) = .arrived place ∨
    (∃ directory name, t.advance here (stepsToFile path) = .missing directory name [] ∧
      place = name :: directory) ∨
    ∃ directory target rest fewer, links = fewer + 1 ∧
      t.advance here (stepsToFile path) = .atLink directory target rest ∧
      t.placeForFile fewer (origin directory target) (Path.steps target ++ rest) = .ok place := by
  unfold placeForFile at h
  split at h
  · rename_i p ha
    exact .inl (by rw [ha, Except.ok.inj h])
  · rename_i directory name ha
    exact .inr (.inl ⟨directory, name, ha, (Except.ok.inj h).symm⟩)
  · simp at h
  · simp at h
  · rename_i directory target rest ha
    split at h
    · simp at h
    · rename_i fewer
      exact .inr (.inr ⟨directory, target, rest, fewer, rfl, ha, h⟩)

/-- Steps that end in staying lead to no place for a file but to a directory. -/
theorem isDirectory_of_placeForFile_append_stay {t : Tree} {links : Nat} {here place : Location}
    {outer : List Path.Step} (h : t.placeForFile links here (outer ++ [.stay]) = .ok place) :
    t.isDirectory place := by
  induction links using Nat.strongRecOn generalizing here outer with
  | ind links ih =>
    have hend := advance_append_stay t here outer
    rcases placeForFile_cases h with ha | ⟨directory, name, ha, -⟩ |
      ⟨directory, target, rest, fewer, rfl, ha, hrest⟩ <;>
      rw [stepsToFile_append_stay] at ha <;> rw [ha] at hend
    · exact hend
    · obtain ⟨others, hothers⟩ := hend
      simp at hothers
    · obtain ⟨others, rfl⟩ := hend
      rw [← List.append_assoc] at hrest
      exact ih fewer (Nat.lt_succ_self fewer) hrest

/-- Where no directory is the steps are taken as they are. -/
theorem stepsToFile_eq_self {t : Tree} {links : Nat} {here place : Location}
    {path : List Path.Step} (hplace : t.isDirectory place = false)
    (h : t.placeForFile links here path = .ok place) : stepsToFile path = path := by
  rcases stepsToFile_cases path with heq | ⟨outer, heq⟩
  · exact heq
  · -- otherwise the same place would be reached by steps that end in staying
    have hsame : t.placeForFile links here (outer ++ [.stay]) = .ok place := by
      rw [← h]
      unfold placeForFile
      rw [stepsToFile_append_stay, heq]
    have hd := isDirectory_of_placeForFile_append_stay hsame
    rw [hplace] at hd
    exact absurd hd (by simp)

/-! ## The file that was opened -/

theorem follow_put_of_placeForFile {t : Tree} {links : Nat} {here place : Location}
    {path : List Path.Step} {executable : Bool} (text : Text)
    (htakes : t.TakesFile place executable) (h : t.placeForFile links here path = .ok place) :
    (t.put place (.file text executable)).follow links here path = .ok place := by
  induction links using Nat.strongRecOn generalizing here path with
  | ind links ih =>
    have hput : (t.put place (.file text executable)).advance here path = _ :=
      advance_put htakes here path
    have hself := stepsToFile_eq_self htakes.not_isDirectory h
    rcases placeForFile_cases h with ha | ⟨directory, name, ha, hplace⟩ |
      ⟨directory, target, rest, fewer, rfl, ha, hrest⟩ <;>
      rw [hself] at ha <;> simp only [ha] at hput
    · unfold follow
      rw [hput]
    · rw [if_pos hplace.symm] at hput
      unfold follow
      rw [hput]
      rfl
    · unfold follow
      rw [hput]
      exact ih fewer (Nat.lt_succ_self fewer) hrest

/-- **Opened** — once a file is put where a path leads for opening, the path leads there. -/
theorem locate_put_of_placeForFile {t : Tree} {base place : Location} {path : Text}
    {executable : Bool} (text : Text) (hne : path ≠ []) (hlen : Text.byteLength path ≤ pathLimit)
    (htakes : t.TakesFile place executable)
    (h : t.placeForFile linkLimit (origin base path) (Path.steps path) = .ok place) :
    (t.put place (.file text executable)).locate base path = .ok place := by
  unfold locate
  rw [if_neg hne, if_neg (Nat.not_lt.mpr hlen)]
  exact follow_put_of_placeForFile text htakes h

end Tree
end LineShell
