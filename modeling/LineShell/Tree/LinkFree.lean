/-
# LineShell.Tree.LinkFree -- a location without links, for every path

Naming what a path leads to without links is a task of its own. It knows no bound on the
links and asks for no directories: names are taken one after the other, `..` takes the last
one back, and a link is replaced by the location that its target comes to, which is worked
out first. A name that is not there is taken as it is, so every path comes to a location.

A link that is met again while its own target is being worked out has no end. From there on
the names are taken as they are written (`lexically`), also those that are left of the links
and of the path around it.

The recursion ends because the links that are being worked out are never entered again, and
only the finitely many locations of the tree can hold a link (`unentered`).
-/

import LineShell.Tree.Follow

namespace LineShell

namespace Tree

/-- Where a step leads if nothing is looked up. -/
def lexicalStep (here : Location) : Path.Step → Location
  | .stay | .slash => here
  | .up => here.tail
  | .enter name => name :: here

/-- **Lexically** — where steps lead if nothing is looked up. -/
def lexically (here : Location) (path : List Path.Step) : Location :=
  path.foldl lexicalStep here

/-- How many locations of the tree are not among those that are being worked out. -/
def unentered (t : Tree) (pending : List Location) : Nat :=
  ((t.entries.map (·.1.2)).filter (· ∉ pending)).length

theorem mem_places_of_at?_eq_some {t : Tree} {place : Location} {entry : Entry}
    (hne : place ≠ []) (h : t.at? place = some entry) : place ∈ t.entries.map (·.1.2) := by
  rw [at?, if_neg hne] at h
  obtain ⟨before, after, hentries, -⟩ := List.lookup_eq_some_iff.mp h
  rw [hentries]
  simp [Location.key]

/-- Entering a link leaves fewer locations. -/
theorem unentered_cons_lt {t : Tree} {pending : List Location} {place : Location} {entry : Entry}
    (hne : place ≠ []) (h : t.at? place = some entry) (hpending : place ∉ pending) :
    t.unentered (place :: pending) < t.unentered pending := by
  have hmem := mem_places_of_at?_eq_some hne h
  have hfilter : (t.entries.map (·.1.2)).filter (· ∉ place :: pending) =
      ((t.entries.map (·.1.2)).filter (· ∉ pending)).filter (· ≠ place) := by
    rw [List.filter_filter]
    refine List.filter_congr fun other _ => ?_
    simp [List.mem_cons, not_or]
  rw [unentered, unentered, hfilter]
  refine List.length_filter_lt_length_iff_exists.mpr ⟨place, ?_, by simp⟩
  exact List.mem_filter.mpr ⟨hmem, by simpa using hpending⟩

/-- **Working out** the location of a path without links, while the targets of the `pending`
links are being worked out. An error is the location that a path comes to which meets one of
them again. -/
def workOut (t : Tree) (pending : List Location) (here : Location) :
    List Path.Step → Except Location Location
  | [] => .ok here
  | .stay :: rest | .slash :: rest => t.workOut pending here rest
  | .up :: rest => t.workOut pending here.tail rest
  | .enter name :: rest =>
    match _hlink : t.at? (name :: here) with
    | some (.link target) =>
      if _hagain : name :: here ∈ pending then .error (lexically (name :: here) rest)
      else
        match t.workOut ((name :: here) :: pending) (origin here target) (Path.steps target) with
        | .ok place => t.workOut pending place rest
        | .error place => .error (lexically place rest)
    | _ => t.workOut pending (name :: here) rest
termination_by path => (t.unentered pending, path.length)
decreasing_by
  all_goals first
    | exact Prod.Lex.right _ (by simp)
    | exact Prod.Lex.left _ _ (unentered_cons_lt (List.cons_ne_nil _ _) _hlink _hagain)

/-- **Link-free** — the location of a path, taken from `base`, without links. -/
def linkFree (t : Tree) (base : Location) (path : Text) : Location :=
  match t.workOut [] (origin base path) (Path.steps path) with
  | .ok place => place
  | .error place => place

end Tree
end LineShell
