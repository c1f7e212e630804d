/-
# LineShell.Proofs.Tree.Parts -- what the parts of a path name

The operations that make directories and files take a path apart: into its directory part and
its last name, or into the directory above a directory and the name of that directory. For
following the path this makes no difference. Slashes at the end ask for no move, so the moves
of a path are those of its two parts, and the last part decides about its end
(`Path.steps_eq_of_lastName`, `Path.exists_steps_eq_parted`).

A path that names something therefore goes through a directory that its front names
(`Names.passes_front`). In particular the directory part of the path of a file names a directory
(`Names.directoryPart`), and what is above a directory that is there is there too
(`not_lacksParent_of_names`).
-/

import LineShell.Proofs.Tree.Absolute
import LineShell.Proofs.Tree.Ways

namespace LineShell

theorem Text.byteLength_le_of_prefix {front t : Text} (h : front <+: t) :
    Text.byteLength front ≤ Text.byteLength t := by
  obtain ⟨rest, rfl⟩ := h
  rw [Text.byteLength_append]
  exact Nat.le_add_right _ _

/-! ## Moves of the parts -/

namespace Path

variable {path front first second name slashes : Text}

/-- Nothing but slashes. -/
def IsSlashes (slashes : Text) : Prop := ∀ c ∈ slashes, c = '/'

/-- A text that is empty or ends in a slash, so that a name begins behind it. -/
def IsOpen (front : Text) : Prop := front = [] ∨ front.getLast? = some '/'

instance (slashes : Text) : Decidable (IsSlashes slashes) :=
  List.decidableBAll (· = '/') slashes

instance (front : Text) : Decidable (IsOpen front) :=
  inferInstanceAs (Decidable (front = [] ∨ front.getLast? = some '/'))

theorem moves_nil : moves [] = [] := rfl

theorem moves_of_isSlashes (h : IsSlashes slashes) : moves slashes = [] := by
  induction slashes with
  | nil => rfl
  | cons c rest ih =>
    obtain rfl := h c List.mem_cons_self
    rw [moves_cons_slash]
    exact ih fun d hd => h d (List.mem_cons_of_mem _ hd)

/-- Slashes ask for no move. -/
theorem moves_append_slashes (path : Text) (h : IsSlashes slashes) :
    moves (path ++ slashes) = moves path := by
  cases slashes with
  | nil => rw [List.append_nil]
  | cons c rest =>
    obtain rfl := h c List.mem_cons_self
    rw [moves_append_slash, moves_of_isSlashes fun d hd => h d (List.mem_cons_of_mem _ hd),
      List.append_nil]

/-- The moves of a path are those of a front that ends in a slash and those of the rest. -/
theorem moves_append_of_isOpen (h : IsOpen first) (second : Text) :
    moves (first ++ second) = moves first ++ moves second := by
  rcases h with rfl | hslash
  · rfl
  · obtain ⟨before, rfl⟩ := List.getLast?_eq_some_iff.mp hslash
    have hbefore : moves (before ++ ['/']) = moves before :=
      moves_append_slashes before (by simp [IsSlashes])
    rw [List.append_assoc, hbefore]
    exact moves_append_slash before second

/-- What is dropped at the end of a directory part are slashes. -/
theorem exists_isSlashes (path : Text) :
    ∃ slashes, path = withoutEndSlashes path ++ slashes ∧ IsSlashes slashes := by
  unfold withoutEndSlashes
  split
  · exact ⟨[], by simp, by simp [IsSlashes]⟩
  · refine ⟨(path.reverse.takeWhile (· = '/')).reverse, ?_, fun c hc => ?_⟩
    · rw [← List.reverse_append, List.takeWhile_append_dropWhile, List.reverse_reverse]
    · have hkept := List.mem_takeWhile_imp (List.mem_reverse.mp hc)
      exact of_decide_eq_true hkept

theorem moves_withoutEndSlashes (path : Text) : moves (withoutEndSlashes path) = moves path := by
  obtain ⟨slashes, hpath, hslashes⟩ := exists_isSlashes path
  calc moves (withoutEndSlashes path)
      = moves (withoutEndSlashes path ++ slashes) := (moves_append_slashes _ hslashes).symm
    _ = moves path := by rw [← hpath]

/-- A path is what stands in front of its last name, and that name. -/
theorem exists_isOpen (path : Text) :
    ∃ front, path = front ++ lastName path ∧ IsOpen front ∧
      directoryPart path = withoutEndSlashes front := by
  refine ⟨(path.reverse.dropWhile (· ≠ '/')).reverse, ?_, ?_, rfl⟩
  · show path = _ ++ (path.reverse.takeWhile (· ≠ '/')).reverse
    rw [← List.reverse_append, List.takeWhile_append_dropWhile, List.reverse_reverse]
  · rw [IsOpen, List.reverse_eq_nil_iff, List.getLast?_reverse]
    by_cases hnil : path.reverse.dropWhile (· ≠ '/') = []
    · exact .inl hnil
    · right
      rw [List.head?_eq_some_head hnil]
      have hhead := List.head_dropWhile_not (fun c => decide (c ≠ '/')) hnil
      simpa using hhead

/-- A name without slashes is split off behind a text that ends in one. -/
theorem splitLast_of_isOpen (h : IsOpen front) (hname : '/' ∉ name) :
    splitLast (front ++ name) = (withoutEndSlashes front, name) := by
  have hkept : ∀ d ∈ name.reverse, decide (d ≠ '/') = true := by
    intro d hd
    exact decide_eq_true fun e => hname (e ▸ List.mem_reverse.mp hd)
  unfold splitLast
  rw [List.reverse_append, List.takeWhile_append_of_pos hkept, List.dropWhile_append_of_pos hkept]
  rcases h with rfl | hslash
  · simp
  · obtain ⟨before, rfl⟩ := List.getLast?_eq_some_iff.mp hslash
    simp

theorem moves_eq_splitLast (path : Text) :
    moves path = moves (directoryPart path) ++ moves (lastName path) := by
  obtain ⟨front, hpath, hopen, hpart⟩ := exists_isOpen path
  rw [hpart, moves_withoutEndSlashes, ← moves_append_of_isOpen hopen, ← hpath]

/-- A last name decides about the end of the path. -/
theorem steps_eq_of_lastName (h : lastName path ≠ []) :
    steps path = moves (directoryPart path) ++ steps (lastName path) := by
  obtain ⟨front, hpath, -, -⟩ := exists_isOpen path
  have hend : path.getLast? = (lastName path).getLast? :=
    calc path.getLast?
        = (front ++ lastName path).getLast? := congrArg List.getLast? hpath
      _ = (lastName path).getLast? := getLast?_append_of_ne_nil front h
  rw [steps_eq_moves_append, steps_eq_moves_append, hend, moves_eq_splitLast, List.append_assoc]

/-- Where the directory above a directory is looked up, something is left of its path. -/
theorem exists_steps_eq_parted (h : (parted path).2 ≠ []) :
    ∃ second, second ≠ [] ∧ steps path = moves (parted path).1 ++ steps second := by
  by_cases hname : lastName path = []
  · have hparted : parted path = splitLast (directoryPart path) := if_pos hname
    rw [hparted] at h ⊢
    obtain ⟨front, hpath, hopen, -⟩ := exists_isOpen path
    rw [hname, List.append_nil] at hpath
    subst hpath
    rcases hopen with rfl | hslash
    · exact absurd rfl h
    · -- the slash at the end is left behind the name in front of it
      refine ⟨lastName (directoryPart path) ++ ['/'], by simp, ?_⟩
      rw [steps_append_single_slash, steps_eq_moves_append, if_pos hslash, moves_eq_splitLast path,
        hname, moves_nil, List.append_nil, moves_eq_splitLast (directoryPart path),
        List.append_assoc]
      rfl
  · have hparted : parted path = splitLast path := if_neg hname
    rw [hparted] at h ⊢
    exact ⟨lastName path, hname, steps_eq_of_lastName hname⟩

theorem isAbsolute_eq_of_prefix (hfront : front <+: path) (hne : front ≠ []) :
    isAbsolute front = isAbsolute path := by
  obtain ⟨rest, rfl⟩ := hfront
  obtain ⟨c, more, rfl⟩ := List.exists_cons_of_ne_nil hne
  rfl

end Path

/-! ## What the parts name -/

namespace Tree

variable {t : Tree} {base place : Location} {path front second : Text}

/-- **Fronts** — a path that names something goes through the directory that a front of it
names, if something is left behind the front. -/
theorem Names.passes_front (h : t.Names base path place) (hfront : front <+: path) (hne : front ≠ [])
    (hsecond : second ≠ []) (hsteps : Path.steps path = Path.moves front ++ Path.steps second) :
    ∃ mid, t.Names base front mid ∧ t.isDirectory mid ∧
      ∃ links ≤ linkLimit, t.Leads mid (Path.steps second) links place := by
  obtain ⟨links, hle, hleads⟩ := h.leads
  have horigin : origin base path = origin base front := by
    rw [origin, origin, Path.isAbsolute_eq_of_prefix hfront hne]
  rw [horigin, hsteps, leads_append_iff] at hleads
  obtain ⟨mid, m, n, hmid, hrest, rfl⟩ := hleads
  -- the rest begins at a directory, because it has a step to take
  have hd := hrest.isDirectory_of_ne_nil (Path.steps_ne_nil hsecond)
  refine ⟨mid, ⟨hne, ?_, ?_, m, ?_, (leads_steps_iff hd).mpr hmid⟩, hd, n, ?_, hrest⟩
  · exact fun hnul => h.nul_not_mem (hfront.subset hnul)
  · exact Nat.le_trans (Text.byteLength_le_of_prefix hfront) h.byteLength_le
  · omega
  · omega

/-- **In two parts** — what two paths with a slash between them name is behind a directory that
the first one names. -/
theorem Names.parts {first : Text} (h : t.Names base (first ++ '/' :: second) place)
    (hfirst : first ≠ []) (hsecond : second ≠ []) :
    ∃ mid, t.Names base first mid ∧ t.isDirectory mid ∧
      ∃ links ≤ linkLimit, t.Leads mid (Path.steps second) links place :=
  h.passes_front (List.prefix_append first _) hfirst hsecond (Path.steps_append_slash first hsecond)

/-- The directory part of a path that names something names a directory. -/
theorem Names.directoryPart (h : t.Names base path place) (hpart : Path.directoryPart path ≠ [])
    (hname : Path.lastName path ≠ []) :
    ∃ mid, t.Names base (Path.directoryPart path) mid ∧ t.isDirectory mid := by
  obtain ⟨mid, hmid, hd, -⟩ := h.passes_front (Path.directoryPart_prefix_self path) hpart hname
    (Path.steps_eq_of_lastName hname)
  exact ⟨mid, hmid, hd⟩

theorem Names.holds (h : t.Names base path place) (hd : t.isDirectory place) :
    t.holds base path = true := by
  simp only [isDirectory, decide_eq_true_eq] at hd
  have hthere : t.lookUp? base path = some .directory := lookUp?_eq_some_iff.mpr ⟨place, h, hd⟩
  rw [Tree.holds, hthere]
  rfl

/-- What is above something that is there is there too. -/
theorem not_lacksParent_of_names (h : t.Names base path place) : ¬ t.LacksParent base path := by
  rintro ⟨hfront, hname, hmissing⟩
  obtain ⟨second, hsecond, hsteps⟩ := Path.exists_steps_eq_parted hname
  obtain ⟨mid, hmid, hd, -⟩ := h.passes_front (Path.parted_prefix_self path) hfront hsecond hsteps
  rw [hmid.holds hd] at hmissing
  exact absurd hmissing (by simp)

/-- Slashes at the end do not change which directory a path names. -/
theorem Names.withoutEndSlashes {slashes : Text} (h : t.Names base path place)
    (hd : t.isDirectory place) (hslashes : Path.IsSlashes slashes)
    (hlength : Text.byteLength (path ++ slashes) ≤ pathLimit) :
    t.Names base (Path.withoutEndSlashes (path ++ slashes)) place := by
  have hfront : Path.withoutEndSlashes (path ++ slashes) <+: path ++ slashes :=
    Path.withoutEndSlashes_prefix_self _
  have hne : Path.withoutEndSlashes (path ++ slashes) ≠ [] :=
    Path.withoutEndSlashes_ne_nil (List.append_ne_nil_of_left_ne_nil h.ne_nil slashes)
  have horigin : origin base (Path.withoutEndSlashes (path ++ slashes)) = origin base path := by
    rw [origin, origin, Path.isAbsolute_eq_of_prefix hfront hne,
      Path.isAbsolute_eq_of_prefix (List.prefix_append path slashes) h.ne_nil]
  refine ⟨hne, ?_, Nat.le_trans (Text.byteLength_le_of_prefix hfront) hlength, ?_⟩
  · intro hnul
    rcases List.mem_append.mp (hfront.subset hnul) with hmem | hmem
    · exact h.nul_not_mem hmem
    · exact absurd (hslashes _ hmem) (by decide)
  · obtain ⟨links, hle, hleads⟩ := h.leads
    refine ⟨links, hle, ?_⟩
    rw [leads_steps_iff hd] at hleads ⊢
    rwa [horigin, Path.moves_withoutEndSlashes, Path.moves_append_slashes path hslashes]

end Tree

end LineShell
