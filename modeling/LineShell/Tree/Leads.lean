/-
# LineShell.Tree.Leads -- which location a path leads to

The rule for following a path, as a relation: `Leads t here steps links place` says that
the steps lead from `here` to `place`, through `links` symbolic links. Each rule takes one
step. A link is replaced by the steps of its target, which begin at the root or at the
directory that holds the link.

The relation knows no bound on the links, and it says nothing about paths that lead
nowhere. `follow_eq_ok_iff` ties it to the function that follows paths: following with a
bound succeeds at a location exactly if the steps lead there through that many links at
most. A path leads to one location only (`Leads.functional`).
-/

import LineShell.Tree.Follow

namespace LineShell

namespace Tree

/-- **Leads** — the steps lead from one location to another through a number of links. -/
inductive Leads (t : Tree) : Location → List Path.Step → Nat → Location → Prop
  | done (here : Location) : Leads t here [] 0 here
  | stay {here place : Location} {rest : List Path.Step} {links : Nat} :
      t.isDirectory here → Leads t here rest links place →
      Leads t here (.stay :: rest) links place
  | slash {here place : Location} {rest : List Path.Step} {links : Nat} :
      t.isDirectory here → Leads t here rest links place →
      Leads t here (.slash :: rest) links place
  | up {here place : Location} {rest : List Path.Step} {links : Nat} :
      t.isDirectory here → Leads t here.tail rest links place →
      Leads t here (.up :: rest) links place
  | enter {here place : Location} {name : Text} {entry : Entry} {rest : List Path.Step}
      {links : Nat} :
      t.isDirectory here → Text.byteLength name ≤ nameLimit →
      t.at? (name :: here) = some entry → (∀ target, entry ≠ .link target) →
      Leads t (name :: here) rest links place →
      Leads t here (.enter name :: rest) links place
  | link {here place : Location} {name target : Text} {rest : List Path.Step} {links : Nat} :
      t.isDirectory here → Text.byteLength name ≤ nameLimit →
      t.at? (name :: here) = some (.link target) →
      Leads t (origin here target) (Path.steps target ++ rest) links place →
      Leads t here (.enter name :: rest) (links + 1) place

/-! ## The function and the relation -/

theorem leads_of_advance_arrived {t : Tree} {here place : Location} {path : List Path.Step}
    (h : t.advance here path = .arrived place) : t.Leads here path 0 place := by
  induction path generalizing here with
  | nil =>
    simp only [advance, Progress.arrived.injEq] at h
    subst h
    exact .done here
  | cons step rest ih =>
    simp only [advance] at h
    split at h
    · rename_i hd
      cases step with
      | stay => exact .stay hd (ih h)
      | slash => exact .slash hd (ih h)
      | up => exact .up hd (ih h)
      | enter name =>
        simp only at h
        split at h
        · simp at h
        · rename_i hn
          split at h
          · simp at h
          · simp at h
          · rename_i entry hl he
            exact .enter hd (Nat.le_of_not_lt hn) he (fun target e => hl target (by simp [e]))
              (ih h)
    · simp at h

theorem leads_of_advance_atLink {t : Tree} {here directory place : Location}
    {path rest : List Path.Step} {target : Text} {links : Nat}
    (h : t.advance here path = .atLink directory target rest)
    (behind : t.Leads (origin directory target) (Path.steps target ++ rest) links place) :
    t.Leads here path (links + 1) place := by
  induction path generalizing here with
  | nil => simp [advance] at h
  | cons step others ih =>
    simp only [advance] at h
    split at h
    · rename_i hd
      cases step with
      | stay => exact .stay hd (ih h)
      | slash => exact .slash hd (ih h)
      | up => exact .up hd (ih h)
      | enter name =>
        simp only at h
        split at h
        · simp at h
        · rename_i hn
          split at h
          · simp at h
          · rename_i found he
            simp only [Progress.atLink.injEq] at h
            obtain ⟨rfl, rfl, rfl⟩ := h
            exact .link hd (Nat.le_of_not_lt hn) he behind
          · rename_i entry hl he
            exact .enter hd (Nat.le_of_not_lt hn) he (fun target e => hl target (by simp [e]))
              (ih h)
    · simp at h

theorem leads_of_follow {t : Tree} {limit : Nat} {here place : Location} {path : List Path.Step}
    (h : t.follow limit here path = .ok place) :
    ∃ links ≤ limit, t.Leads here path links place := by
  induction limit generalizing here path with
  | zero =>
    unfold follow at h
    split at h
    · rename_i ha
      simp only [Except.ok.injEq] at h
      subst h
      exact ⟨0, Nat.le_refl 0, leads_of_advance_arrived ha⟩
    · simp at h
    · simp at h
    · simp at h
  | succ limit ih =>
    unfold follow at h
    split at h
    · rename_i ha
      simp only [Except.ok.injEq] at h
      subst h
      exact ⟨0, Nat.zero_le _, leads_of_advance_arrived ha⟩
    · simp at h
    · simp at h
    · rename_i ha
      obtain ⟨links, hle, hl⟩ := ih h
      exact ⟨links + 1, Nat.succ_le_succ hle, leads_of_advance_atLink ha hl⟩

theorem follow_of_leads {t : Tree} {here place : Location} {path : List Path.Step}
    {links limit : Nat}
    (h : t.Leads here path links place) (hle : links ≤ limit) :
    t.follow limit here path = .ok place := by
  induction h generalizing limit with
  | done here => unfold follow; simp [advance]
  | stay hd _ ih =>
    have := ih hle
    unfold follow at this ⊢
    simpa only [advance, hd, if_true] using this
  | slash hd _ ih =>
    have := ih hle
    unfold follow at this ⊢
    simpa only [advance, hd, if_true] using this
  | up hd _ ih =>
    have := ih hle
    unfold follow at this ⊢
    simpa only [advance, hd, if_true] using this
  | @enter here place name entry rest links hd hn he hl _ ih =>
    have := ih hle
    unfold follow at this ⊢
    have step : t.advance here (.enter name :: rest) = t.advance (name :: here) rest := by
      simp only [advance, hd, if_true, if_neg (Nat.not_lt.2 hn), he]
    rwa [step]
  | @link here place name target rest links hd hn he _ ih =>
    obtain ⟨limit, rfl⟩ : ∃ n, limit = n + 1 := ⟨limit - 1, by omega⟩
    have step : t.advance here (.enter name :: rest) = .atLink here target rest := by
      simp only [advance, hd, if_true, if_neg (Nat.not_lt.2 hn), he]
    unfold follow
    rw [step]
    exact ih (by omega)

/-- Following steps with a bound on the links succeeds at a location exactly if the steps
lead there within the bound. -/
theorem follow_eq_ok_iff {t : Tree} {limit : Nat} {here place : Location} {path : List Path.Step} :
    t.follow limit here path = .ok place ↔ ∃ links ≤ limit, t.Leads here path links place :=
  ⟨leads_of_follow, fun ⟨_, hle, h⟩ => follow_of_leads h hle⟩

/-- Steps lead to one location only. -/
theorem Leads.functional {t : Tree} {here first second : Location} {path : List Path.Step}
    {m n : Nat} (h : t.Leads here path m first) (h' : t.Leads here path n second) :
    first = second := by
  have e := follow_of_leads h (Nat.le_max_left m n)
  rw [follow_of_leads h' (Nat.le_max_right m n)] at e
  exact (Except.ok.inj e).symm

end Tree
end LineShell
