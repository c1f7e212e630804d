/-
# LineShell.Proofs.Tree.Plain -- where NUL characters can come from

A text that is asked of the system must not hold a NUL character. The paths that the shell
itself forms come from lines and from the tree: the name of a directory that is found is made
of the names in the path, of those in the links that were followed, and of those of the place
that the path was taken from (`Leads.isPlain`). If none of these holds a NUL, the name of the
directory does not either (`nul_not_mem_directory`).

So only the targets of links matter in a tree (`PlainLinks`). Making directories and opening
and writing files makes no links, and keeps them plain.
-/

import LineShell.Proofs.Text.Pieces
import LineShell.Proofs.Tree.Frame
import LineShell.Search
import LineShell.Tree.Leads

namespace LineShell

/-- **Plain** — no name of the location holds a NUL. -/
def Location.IsPlain (place : Location) : Prop := ∀ name ∈ place, '\x00' ∉ name

namespace Location.IsPlain

variable {place : Location} {name : Text}

theorem nil : IsPlain [] := by simp [IsPlain]

theorem tail (h : place.IsPlain) : IsPlain place.tail :=
  fun name hname => h name (List.mem_of_mem_tail hname)

theorem cons (hname : '\x00' ∉ name) (h : place.IsPlain) : IsPlain (name :: place) := by
  intro other hother
  rcases List.mem_cons.mp hother with rfl | hother
  · exact hname
  · exact h other hother

theorem origin (h : place.IsPlain) (path : Text) : (Tree.origin place path).IsPlain := by
  unfold Tree.origin
  split
  · exact nil
  · exact h

/-- The path of a plain location holds no NUL. -/
theorem nul_not_mem_toPath (h : place.IsPlain) : '\x00' ∉ place.toPath := by
  intro hmem
  have hnames : '\x00' ∈ ['/'].intercalate place.reverse :=
    (List.mem_cons.mp hmem).resolve_left (by decide)
  obtain ⟨name, hname, hnul⟩ := Text.exists_mem_of_mem_intercalate hnames (by decide)
  exact h name (List.mem_reverse.mp hname) hnul

end Location.IsPlain

/-- The names that a path enters are made of characters of the path. -/
theorem Path.mem_of_enter_mem_steps {path name : Text} {c : Char} (h : .enter name ∈ steps path)
    (hc : c ∈ name) : c ∈ path := by
  rw [steps, List.mem_append] at h
  rcases h with h | h
  · obtain ⟨piece, hpiece, hstep⟩ := List.mem_map.mp h
    have hname : piece = name := by
      unfold Step.ofName at hstep
      split at hstep
      · exact absurd hstep (by simp)
      · split at hstep
        · exact absurd hstep (by simp)
        · exact Step.enter.inj hstep
    exact Text.mem_of_mem_pieces (List.mem_filter.mp hpiece).1 (hname ▸ hc)
  · split at h
    · exact absurd h (by simp)
    · exact absurd h (by simp)

/-- Where an entry points to, if it is a link. -/
def Entry.link? : Entry → Option Text
  | .link target => some target
  | _ => none

namespace Tree

/-! ## Trees with plain links -/

/-- **Plain links** — no link of the tree points to a path with a NUL. -/
def PlainLinks (t : Tree) : Prop :=
  ∀ place target, t.at? place = some (.link target) → '\x00' ∉ target

/-- The links of the empty tree are those to the descriptors. -/
theorem plainLinks_empty : empty.PlainLinks := by
  have hentries : ∀ entry ∈ empty.entries.map Prod.snd, ∀ target ∈ entry.link?,
      '\x00' ∉ target := by decide +kernel
  intro place target hlink
  have hne : place ≠ [] := by
    rintro rfl
    rw [at?_nil] at hlink
    exact absurd hlink (by simp)
  rw [at?, if_neg hne] at hlink
  obtain ⟨before, after, he, -⟩ := List.lookup_eq_some_iff.mp hlink
  refine hentries (.link target) (List.mem_map.mpr ⟨(place.key, .link target), ?_, rfl⟩) target rfl
  rw [he]
  exact List.mem_append_right before List.mem_cons_self

variable {t t' : Tree}

/-- Links are kept plain where all that is new are directories and files. -/
theorem PlainLinks.frame (h : t.PlainLinks) {places : List Location} (hframe : Frame places t t')
    (hplaces : ∀ place ∈ places, ∀ target, t'.at? place ≠ some (.link target)) :
    t'.PlainLinks := by
  intro place target hlink
  have hplace : place ∉ places := fun hmem => hplaces place hmem target hlink
  rcases hframe.outside hplace with hsame | ⟨-, hdirectory⟩
  · exact h place target (hsame ▸ hlink)
  · exact absurd (hlink.symm.trans hdirectory) (by simp)

theorem PlainLinks.put (h : t.PlainLinks) {place : Location} (hplace : place ≠ []) {entry : Entry}
    (hentry : ∀ target, entry = .link target → '\x00' ∉ target) :
    (t.put place entry).PlainLinks := by
  intro other target hlink
  rw [at?_put _ _ _ _ hplace] at hlink
  split at hlink
  · exact hentry target (Option.some.inj hlink)
  · exact h other target hlink

theorem PlainLinks.writeFile (h : t.PlainLinks) (place : Location) (early : Nat) (text : Text) :
    (t.writeFile place early text).PlainLinks := by
  unfold Tree.writeFile
  split
  · rename_i held executable hfile
    exact h.put (TakesFile.ne_nil (.inr ⟨held, hfile⟩)) (by simp)
  · exact h

/-- **Following** leads from a plain location to a plain one, through any links. -/
theorem Leads.isPlain {here place : Location} {path : List Path.Step} {links : Nat}
    (h : t.Leads here path links place) (hlinks : t.PlainLinks) (hhere : here.IsPlain)
    (hpath : ∀ name, .enter name ∈ path → '\x00' ∉ name) : place.IsPlain := by
  induction h with
  | done here => exact hhere
  | stay _ _ ih => exact ih hhere fun name hn => hpath name (List.mem_cons_of_mem _ hn)
  | slash _ _ ih => exact ih hhere fun name hn => hpath name (List.mem_cons_of_mem _ hn)
  | up _ _ ih => exact ih hhere.tail fun name hn => hpath name (List.mem_cons_of_mem _ hn)
  | enter _ _ _ _ _ ih =>
    exact ih (hhere.cons (hpath _ List.mem_cons_self)) fun name hn =>
      hpath name (List.mem_cons_of_mem _ hn)
  | link _ _ htarget _ ih =>
    refine ih (hhere.origin _) fun name hn => ?_
    -- the steps are those of the link's target and the ones that were left
    rcases List.mem_append.mp hn with hn | hn
    · exact fun hmem => hlinks _ _ htarget (Path.mem_of_enter_mem_steps hn hmem)
    · exact hpath name (List.mem_cons_of_mem _ hn)

/-- A path without NULs is followed from a plain location to a plain one. -/
theorem isPlain_of_locate {base place : Location} {path : Text} (hlinks : t.PlainLinks)
    (hbase : base.IsPlain) (hpath : '\x00' ∉ path) (h : t.locate base path = .ok place) :
    place.IsPlain := by
  unfold locate at h
  split at h
  · exact absurd h (by simp)
  · split at h
    · exact absurd h (by simp)
    · obtain ⟨links, -, hleads⟩ := follow_eq_ok_iff.mp h
      refine hleads.isPlain hlinks (hbase.origin _) fun name hname hmem => ?_
      exact hpath (Path.mem_of_enter_mem_steps hname hmem)

/-- **The name of a directory** that is found holds no NUL: paths that do are refused. -/
theorem nul_not_mem_directory {base : Location} {path directory found : Text}
    (hlinks : t.PlainLinks) (hbase : base.IsPlain)
    (h : Search.directory t base path directory = some found) : '\x00' ∉ found := by
  unfold Search.directory at h
  dsimp only at h
  split at h
  · exact absurd h (by simp)
  · rename_i hnul
    have hwanted : '\x00' ∉ Path.join directory path := by simpa using hnul
    split at h
    · rename_i place hplace
      have hplain := isPlain_of_locate hlinks hbase hwanted hplace
      split at h
      · obtain rfl := Option.some.inj h
        exact hplain.nul_not_mem_toPath
      · exact absurd h (by simp)
    · exact absurd h (by simp)

end Tree

end LineShell
