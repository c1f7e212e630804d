/-
# LineShell.Proofs.Tree.LinkFree -- both ways of resolving links agree

Links are resolved in two ways. Following a path puts the steps of a link's target in front of
those that are left, and counts the links; working a location out resolves the target by
itself, and remembers which links it is in the middle of. Where the path leads somewhere, both
come to the same location (`linkFree_of_leads`).

The two could only differ at a link that is met again while its target is being worked out.
That does not happen on a path that leads somewhere: to get through the link, the way through
its target is taken, which has fewer links than the way through the link itself, and a way has
one number of links. So every link that is being worked out takes more links to get through
than there are on the rest of the way (`IsBeyond`), and the invariant carries over to each
part of the way.
-/

import LineShell.Proofs.Tree.Ways
import LineShell.Tree.LinkFree

namespace LineShell

namespace Tree

variable {t : Tree} {here place link : Location} {path : List Path.Step} {links fewer : Nat}
  {pending : List Location}

/-- **Beyond** — getting through the name at the location, if it can be got through, takes
more than so many links. -/
def IsBeyond (t : Tree) (links : Nat) (link : Location) : Prop :=
  ∀ name above more behind, link = name :: above →
    t.Leads above [.enter name] more behind → links < more

theorem IsBeyond.mono (h : t.IsBeyond links link) (hle : fewer ≤ links) :
    t.IsBeyond fewer link := by
  intro name above more behind hlink hleads
  exact Nat.lt_of_le_of_lt hle (h name above more behind hlink hleads)

/-- A way through a link goes through its target first, and that is one link less than
getting through the link. -/
theorem Leads.through_link {name target : Text} (h : t.Leads here (.enter name :: path) links place)
    (htarget : t.at? (name :: here) = some (.link target)) :
    ∃ mid m n, t.Leads (origin here target) (Path.steps target) m mid ∧
      t.Leads here [.enter name] (m + 1) mid ∧ t.Leads mid path n place ∧ links = m + 1 + n := by
  cases h with
  | enter _ _ hentry hlink _ =>
    rw [htarget] at hentry
    exact absurd (Option.some.inj hentry).symm (hlink target)
  | link hd hlength hentry hrest =>
    rw [htarget] at hentry
    obtain rfl := Entry.link.inj (Option.some.inj hentry)
    obtain ⟨mid, m, n, hthrough, hbehind, rfl⟩ := leads_append_iff.mp hrest
    refine ⟨mid, m, n, hthrough, ?_, hbehind, Nat.add_right_comm m n 1⟩
    apply Leads.link hd hlength htarget
    rwa [List.append_nil]

/-- A link is beyond the way through its target. -/
theorem isBeyond_of_leads {name : Text} {behind : Location}
    (h : t.Leads here [.enter name] (links + 1) behind) : t.IsBeyond links (name :: here) := by
  intro other above more place hlink hleads
  obtain ⟨rfl, rfl⟩ := List.cons.inj hlink
  obtain rfl := hleads.functional h
  rw [hleads.links_eq h]
  exact Nat.lt_succ_self links

/-- Inside the target of a link, the link is one more that is beyond the way. -/
theorem isBeyond_inside {name : Text} {behind : Location}
    (hpending : ∀ link ∈ pending, t.IsBeyond links link) (hle : fewer ≤ links)
    (h : t.Leads here [.enter name] (fewer + 1) behind) :
    ∀ link ∈ (name :: here) :: pending, t.IsBeyond fewer link := by
  intro link hmem
  rcases List.mem_cons.mp hmem with rfl | hmem
  · exact isBeyond_of_leads h
  · exact (hpending link hmem).mono hle

/-- **Working out** a path that leads somewhere comes to where it leads. -/
theorem workOut_of_leads (h : t.Leads here path links place)
    (hpending : ∀ link ∈ pending, t.IsBeyond links link) :
    t.workOut pending here path = .ok place := by
  fun_induction workOut t pending here path generalizing links place with
  | case1 pending here =>
    cases h
    rfl
  | case2 pending here rest ih =>
    cases h with
    | stay _ hrest => exact ih hrest hpending
  | case3 pending here rest ih =>
    cases h with
    | slash _ hrest => exact ih hrest hpending
  | case4 pending here rest ih =>
    cases h with
    | up _ hrest => exact ih hrest hpending
  | case5 pending here name rest target htarget hagain =>
    -- a pending link takes more links to get through than there are on the way
    obtain ⟨mid, m, n, -, hlink, -, rfl⟩ := h.through_link htarget
    have hbeyond := hpending _ hagain name here (m + 1) mid rfl hlink
    omega
  | case6 pending here name rest target htarget _ behind hbehind ihtarget ihrest =>
    obtain ⟨mid, m, n, hthrough, hlink, hrest, rfl⟩ := h.through_link htarget
    have hmid := ihtarget hthrough (isBeyond_inside hpending (by omega) hlink)
    rw [hbehind] at hmid
    obtain rfl := Except.ok.inj hmid
    apply ihrest hrest
    intro link hmem
    exact IsBeyond.mono (hpending link hmem) (by omega)
  | case7 pending here name rest target htarget _ behind hbehind ihtarget =>
    -- the target of a link on the way leads somewhere itself
    obtain ⟨mid, m, n, hthrough, hlink, -, rfl⟩ := h.through_link htarget
    have hmid := ihtarget hthrough (isBeyond_inside hpending (by omega) hlink)
    rw [hbehind] at hmid
    exact absurd hmid (by simp)
  | case8 pending here name rest hnolink ih =>
    cases h with
    | enter _ _ _ _ hrest => exact ih hrest hpending
    | link _ _ htarget _ => exact (hnolink _ htarget).elim

/-- **Both ways agree** — a path that leads somewhere is worked out to where it leads. -/
theorem linkFree_of_leads {base : Location} {path : Text}
    (h : t.Leads (origin base path) (Path.steps path) links place) :
    t.linkFree base path = place := by
  rw [linkFree, workOut_of_leads h (by simp)]

end Tree
end LineShell
