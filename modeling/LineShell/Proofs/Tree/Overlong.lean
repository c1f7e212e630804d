/-
# LineShell.Proofs.Tree.Overlong -- paths that cannot be asked for

A path that leads nowhere can be asked for; the answer is that there is nothing. A path can
not be asked for if it is too long, or if on the way a name too long is to be entered. The
second is told by `Stumbles`, the counterpart of `Leads`: each rule takes one step, and a way
stumbles where a directory has been reached in which such a name comes next, however the way
goes on behind it.

`locate_eq_nameTooLong_iff` ties the two together with the function that locates paths, with
the bound on the links that are followed.
-/

import LineShell.Tree.Leads

namespace LineShell

namespace Tree

/-! ## One step -/

variable {t : Tree} {here : Location} {rest : List Path.Step} {name : Text}
  {limit links : Nat}

theorem follow_of_not_isDirectory (h : ¬ t.isDirectory here) (step : Path.Step) :
    t.follow limit here (step :: rest) = .error .notDirectory := by
  unfold follow
  rw [advance.eq_def]
  simp only [if_neg h]

theorem follow_stay (h : t.isDirectory here) :
    t.follow limit here (.stay :: rest) = t.follow limit here rest := by
  unfold follow
  rw [advance, if_pos h]

theorem follow_slash (h : t.isDirectory here) :
    t.follow limit here (.slash :: rest) = t.follow limit here rest := by
  unfold follow
  rw [advance, if_pos h]

theorem follow_up (h : t.isDirectory here) :
    t.follow limit here (.up :: rest) = t.follow limit here.tail rest := by
  unfold follow
  rw [advance, if_pos h]

theorem follow_overlong (h : t.isDirectory here) (hname : nameLimit < Text.byteLength name) :
    t.follow limit here (.enter name :: rest) = .error .nameTooLong := by
  unfold follow
  rw [advance, if_pos h, if_pos hname]

section Enter

variable (h : t.isDirectory here) (hname : ¬ nameLimit < Text.byteLength name)
include h hname

theorem follow_missing (hentry : t.at? (name :: here) = none) :
    t.follow limit here (.enter name :: rest) = .error .noSuchFile := by
  unfold follow
  rw [advance, if_pos h, if_neg hname, hentry]

theorem follow_enter {entry : Entry} (hentry : t.at? (name :: here) = some entry)
    (hlink : ∀ target, entry ≠ .link target) :
    t.follow limit here (.enter name :: rest) = t.follow limit (name :: here) rest := by
  have hadvance : t.advance here (.enter name :: rest) = t.advance (name :: here) rest := by
    rw [advance, if_pos h, if_neg hname, hentry]
    cases entry with
    | link target => exact absurd rfl (hlink target)
    | directory | file | device => rfl
  unfold follow
  rw [hadvance]

theorem follow_link_zero {target : Text} (hentry : t.at? (name :: here) = some (.link target)) :
    t.follow 0 here (.enter name :: rest) = .error .tooManyLinks := by
  unfold follow
  rw [advance, if_pos h, if_neg hname, hentry]

theorem follow_link_succ {target : Text} (hentry : t.at? (name :: here) = some (.link target)) :
    t.follow (limit + 1) here (.enter name :: rest) =
      t.follow limit (origin here target) (Path.steps target ++ rest) := by
  rw [follow, advance, if_pos h, if_neg hname, hentry]

end Enter

/-! ## Stumbling -/

/-- **Stumbles** — on the way that the steps ask for, behind a number of links, there is a
directory from which a name too long is to be entered. -/
inductive Stumbles (t : Tree) : Location → List Path.Step → Nat → Prop
  | overlong {here : Location} {name : Text} {rest : List Path.Step} :
      t.isDirectory here → nameLimit < Text.byteLength name →
      Stumbles t here (.enter name :: rest) 0
  | stay {here : Location} {rest : List Path.Step} {links : Nat} :
      t.isDirectory here → Stumbles t here rest links → Stumbles t here (.stay :: rest) links
  | slash {here : Location} {rest : List Path.Step} {links : Nat} :
      t.isDirectory here → Stumbles t here rest links → Stumbles t here (.slash :: rest) links
  | up {here : Location} {rest : List Path.Step} {links : Nat} :
      t.isDirectory here → Stumbles t here.tail rest links → Stumbles t here (.up :: rest) links
  | enter {here : Location} {name : Text} {entry : Entry} {rest : List Path.Step}
      {links : Nat} :
      t.isDirectory here → ¬ nameLimit < Text.byteLength name →
      t.at? (name :: here) = some entry → (∀ target, entry ≠ .link target) →
      Stumbles t (name :: here) rest links → Stumbles t here (.enter name :: rest) links
  | link {here : Location} {name target : Text} {rest : List Path.Step} {links : Nat} :
      t.isDirectory here → ¬ nameLimit < Text.byteLength name →
      t.at? (name :: here) = some (.link target) →
      Stumbles t (origin here target) (Path.steps target ++ rest) links →
      Stumbles t here (.enter name :: rest) (links + 1)

theorem follow_of_stumbles {path : List Path.Step} (h : t.Stumbles here path links)
    (hle : links ≤ limit) : t.follow limit here path = .error .nameTooLong := by
  induction h generalizing limit with
  | overlong hd hname => exact follow_overlong hd hname
  | stay hd _ ih =>
    rw [follow_stay hd]
    exact ih hle
  | slash hd _ ih =>
    rw [follow_slash hd]
    exact ih hle
  | up hd _ ih =>
    rw [follow_up hd]
    exact ih hle
  | enter hd hname hentry hlink _ ih =>
    rw [follow_enter hd hname hentry hlink]
    exact ih hle
  | link hd hname hentry _ ih =>
    obtain ⟨limit, rfl⟩ : ∃ n, limit = n + 1 := ⟨limit - 1, by omega⟩
    rw [follow_link_succ hd hname hentry]
    apply ih
    omega

theorem stumbles_of_follow {path : List Path.Step}
    (h : t.follow limit here path = .error .nameTooLong) :
    ∃ links ≤ limit, t.Stumbles here path links := by
  -- a link puts steps in front of those that are left, but then fewer links may be followed
  induction limit using Nat.strongRecOn generalizing here path with
  | ind limit fewer =>
    induction path generalizing here with
    | nil =>
      unfold follow at h
      exact absurd h (by simp [advance])
    | cons step rest ih =>
      have hd : t.isDirectory here := by
        apply Decidable.byContradiction
        intro hd
        rw [follow_of_not_isDirectory hd] at h
        exact absurd h (by simp)
      cases step with
      | stay =>
        rw [follow_stay hd] at h
        obtain ⟨links, hle, hrest⟩ := ih h
        exact ⟨links, hle, .stay hd hrest⟩
      | slash =>
        rw [follow_slash hd] at h
        obtain ⟨links, hle, hrest⟩ := ih h
        exact ⟨links, hle, .slash hd hrest⟩
      | up =>
        rw [follow_up hd] at h
        obtain ⟨links, hle, hrest⟩ := ih h
        exact ⟨links, hle, .up hd hrest⟩
      | enter name =>
        by_cases hname : nameLimit < Text.byteLength name
        · exact ⟨0, Nat.zero_le limit, .overlong hd hname⟩
        rcases hentry : t.at? (name :: here) with _ | entry
        · rw [follow_missing hd hname hentry] at h
          exact absurd h (by simp)
        by_cases hlink : ∃ target, entry = .link target
        · obtain ⟨target, rfl⟩ := hlink
          cases limit with
          | zero =>
            rw [follow_link_zero hd hname hentry] at h
            exact absurd h (by simp)
          | succ limit =>
            rw [follow_link_succ hd hname hentry] at h
            obtain ⟨links, hle, hrest⟩ := fewer limit (Nat.lt_succ_self limit) h
            exact ⟨links + 1, Nat.succ_le_succ hle, .link hd hname hentry hrest⟩
        · have hother : ∀ target, entry ≠ .link target := fun target e => hlink ⟨target, e⟩
          rw [follow_enter hd hname hentry hother] at h
          obtain ⟨links, hle, hrest⟩ := ih h
          exact ⟨links, hle, .enter hd hname hentry hother hrest⟩

/-! ## Paths that cannot be asked for -/

/-- **Overlong** — the path is too long, or stumbles behind few enough links. -/
def IsOverlong (t : Tree) (base : Location) (path : Text) : Prop :=
  pathLimit < Text.byteLength path ∨
    ∃ links ≤ linkLimit, t.Stumbles (origin base path) (Path.steps path) links

theorem locate_eq_nameTooLong_iff {base : Location} {path : Text} (hne : path ≠ []) :
    t.locate base path = .error .nameTooLong ↔ t.IsOverlong base path := by
  unfold locate IsOverlong
  rw [if_neg hne]
  split
  · rename_i hlong
    exact iff_of_true rfl (.inl hlong)
  · rename_i hshort
    rw [or_iff_right hshort]
    exact ⟨stumbles_of_follow, fun ⟨_, hle, h⟩ => follow_of_stumbles h hle⟩

end Tree
end LineShell
