/-
# LineShell.Proofs.Tree.Missing -- directories that are missing below one that is there

A path that goes down from a directory by ordinary names, of which the first one is missing,
finds all of them missing (`Descends`, `IsSound.at?_append_eq_none`). Making its directories
goes up to the first one that is there and makes them one inside the other, and nothing can
stand in the way: the operation succeeds (`makeDirectories_descends`), unless there are more of
them than it can go up (`perform_makeDirectories_of_many`).

A file is then made in the last of them: its name is the only step that leads nowhere
(`placeForFile_of_leads`).
-/

import LineShell.Proofs.Tree.Grown

namespace LineShell

/-! ## Going down by names -/

namespace Path

variable {above path name slashes : Text} {names : List Text}

/-- **Descends** — the path goes down from another one by names, innermost first, with one
slash or more in front of each. -/
inductive Descends (above : Text) : List Text → Text → Prop
  | here : Descends above [] above
  | further {names : List Text} {path : Text} (slashes name : Text) : Descends above names path →
      IsSlashes slashes → IsOpen (path ++ slashes) →
      Descends above (name :: names) (path ++ slashes ++ name)

namespace Descends

theorem prefix_path (h : Descends above names path) : above <+: path := by
  induction h with
  | here => exact List.prefix_rfl
  | further slashes name _ _ _ ih =>
    rw [List.append_assoc]
    exact ih.trans (List.prefix_append _ _)

theorem moves_eq (h : Descends above names path) (hnames : ∀ name ∈ names, IsProper name) :
    moves path = moves above ++ Location.ways names := by
  induction h with
  | here => exact (List.append_nil _).symm
  | further slashes name _ hslashes hopen ih =>
    have habove := ih fun other hother => hnames other (List.mem_cons_of_mem _ hother)
    rw [moves_append_of_isOpen hopen, moves_append_slashes _ hslashes, habove,
      moves_of_isProper (hnames name List.mem_cons_self), Location.ways_cons, List.append_assoc]

/-- A path that goes down ends in a name. -/
theorem getLast?_ne (h : Descends above (name :: names) path) (hname : IsProper name) :
    path.getLast? ≠ some '/' := by
  cases h with
  | further _ _ _ _ _ =>
    rw [getLast?_append_of_ne_nil _ hname.ne_nil]
    exact fun hslash => hname.slash_not_mem (List.mem_of_getLast? hslash)

theorem nul_not_mem (h : Descends above names path) (habove : '\x00' ∉ above)
    (hnames : ∀ name ∈ names, IsName name) : '\x00' ∉ path := by
  induction h with
  | here => exact habove
  | further slashes name _ hslashes _ ih =>
    have hpath := ih fun other hother => hnames other (List.mem_cons_of_mem _ hother)
    simp only [List.mem_append, not_or]
    refine ⟨⟨hpath, fun hnul => ?_⟩, (hnames name List.mem_cons_self).nul_not_mem⟩
    exact absurd (hslashes _ hnul) (by decide)

end Descends

/-- Slashes behind a name are dropped. -/
theorem withoutEndSlashes_append (hend : path.getLast? ≠ some '/') (hne : path ≠ [])
    (hslashes : IsSlashes slashes) : withoutEndSlashes (path ++ slashes) = path := by
  obtain ⟨before, c, rfl⟩ := (List.eq_nil_or_concat path).resolve_left hne
  have hc : c ≠ '/' := by simpa using hend
  have hall : ¬ ((before.concat c ++ slashes).all (· = '/') = true) := by simp [hc]
  have hdropped : ∀ d ∈ slashes.reverse, decide (d = '/') = true := by
    intro d hd
    exact decide_eq_true (hslashes d (List.mem_reverse.mp hd))
  rw [withoutEndSlashes, if_neg hall, List.reverse_append, List.dropWhile_append_of_pos hdropped]
  simp [hc]

theorem parted_below (hopen : IsOpen (path ++ slashes)) (hname : IsProper name) :
    parted (path ++ slashes ++ name) = (withoutEndSlashes (path ++ slashes), name) := by
  have hsplit := splitLast_of_isOpen hopen hname.slash_not_mem
  have hlast : lastName (path ++ slashes ++ name) = name := congrArg Prod.snd hsplit
  rw [parted, hlast, if_neg hname.ne_nil, hsplit]

end Path

theorem IsName.isProper {name : Text} (h : IsName name) : IsProper name :=
  ⟨h.ne_nil, h.ne_stay, h.ne_up, h.slash_not_mem⟩

namespace Tree

open TreeAction

variable {t t' : Tree} {base place : Location} {above path name : Text} {names : List Text}

/-! ## What is missing -/

/-- Below a name that is missing everything is missing. -/
theorem IsSound.at?_append_eq_none (h : t.IsSound) (hmissing : t.at? place = none)
    (names : List Text) : t.at? (names ++ place) = none := by
  induction names with
  | nil => exact hmissing
  | cons name outer ih =>
    by_contra hentry
    have hd : t.isDirectory (outer ++ place) :=
      h.isDirectory_above (Option.isSome_iff_ne_none.mpr hentry)
    rw [isDirectory, ih] at hd
    exact absurd hd (by simp)

/-- **Goes missing** — a path goes down from a directory by ordinary names, innermost first, and
the outermost one is not there. -/
structure GoesMissing (t : Tree) (base : Location) (above : Text) (place : Location)
    (names : List Text) (path : Text) : Prop where
  descends : Path.Descends above names path
  names_above : t.Names base above place
  isDirectory : t.isDirectory place
  isName : ∀ name ∈ names, IsName name
  missing : ∀ {name}, names.getLast? = some name → t.at? (name :: place) = none
  byteLength_le : Text.byteLength path ≤ pathLimit

namespace GoesMissing

theorem isProper (h : t.GoesMissing base above place names path) :
    ∀ name ∈ names, IsProper name :=
  fun name hname => (h.isName name hname).isProper

theorem nul_not_mem (h : t.GoesMissing base above place names path) : '\x00' ∉ path :=
  h.descends.nul_not_mem h.names_above.nul_not_mem h.isName

/-- The path begins where the directory above does. -/
theorem origin_eq (h : t.GoesMissing base above place names path) :
    origin base path = origin base above := by
  rw [origin, origin,
    ← Path.isAbsolute_eq_of_prefix h.descends.prefix_path h.names_above.ne_nil]

/-- The path names nothing. -/
theorem holds_eq_false (h : t.GoesMissing base above place names path) (hne : names ≠ []) :
    t.holds base path = false := by
  rw [holds, Option.isSome_eq_false_iff, Option.isNone_iff_eq_none, Option.eq_none_iff_forall_ne_some]
  intro entry hentry
  obtain ⟨behind, hbehind, -⟩ := lookUp?_eq_some_iff.mp hentry
  obtain ⟨links, -, hleads⟩ := hbehind.leads
  obtain ⟨inner, first, rfl⟩ := (List.eq_nil_or_concat names).resolve_left hne
  -- the way goes through the directory above, and there the first name is entered
  have hsteps : ∃ rest, Path.steps path = Path.moves above ++ .enter first :: rest := by
    rw [Path.steps_eq_moves_append, h.descends.moves_eq h.isProper]
    refine ⟨inner.reverse.map .enter ++ if path.getLast? = some '/' then [.slash] else [], ?_⟩
    simp [Location.ways]
  obtain ⟨rest, hsteps⟩ := hsteps
  rw [hsteps, h.origin_eq, leads_append_iff] at hleads
  obtain ⟨mid, m, n, hmid, hrest, -⟩ := hleads
  obtain ⟨links', -, habove⟩ := h.names_above.leads
  rw [leads_steps_iff h.isDirectory] at habove
  obtain rfl := hmid.functional habove
  have hfree : t.at? (first :: mid) = none := h.missing (by simp)
  cases hrest with
  | enter _ _ hfirst _ _ => exact absurd (hfree.symm.trans hfirst) (by simp)
  | link _ _ hfirst _ => exact absurd (hfree.symm.trans hfirst) (by simp)

/-- Without its last name the path goes missing just the same. -/
theorem without_last (h : t.GoesMissing base above place (name :: names) path) :
    ∃ front slashes, path = front ++ slashes ++ name ∧ Path.IsSlashes slashes ∧
      Path.IsOpen (front ++ slashes) ∧ t.GoesMissing base above place names front := by
  obtain ⟨hdescends, habove, hd, hnames, hmissing, hlength⟩ := h
  cases hdescends with
  | @further _ front slashes _ hfront hslashes hopen =>
    refine ⟨front, slashes, rfl, hslashes, hopen, hfront, habove, hd, ?_, ?_, ?_⟩
    · exact fun other hother => hnames other (List.mem_cons_of_mem _ hother)
    · intro first hfirst
      cases names with
      | nil => exact absurd hfirst (by simp)
      | cons outer rest => exact hmissing hfirst
    · have hprefix : front <+: front ++ slashes ++ name := by
        rw [List.append_assoc]
        exact List.prefix_append _ _
      exact Nat.le_trans (Text.byteLength_le_of_prefix hprefix) hlength

/-- Where more than one name is missing, so is the directory above the last one. -/
theorem lacksParent {outer : Text}
    (h : t.GoesMissing base above place (name :: outer :: names) path) :
    ∃ front slashes, path = front ++ slashes ++ name ∧ Path.IsSlashes slashes ∧
      Path.IsOpen (front ++ slashes) ∧ Path.parted path = (front, name) ∧
      t.GoesMissing base above place (outer :: names) front ∧ t.LacksParent base path := by
  obtain ⟨front, slashes, rfl, hslashes, hopen, hfront⟩ := h.without_last
  have hname := h.isProper name List.mem_cons_self
  have houter := hfront.isProper outer List.mem_cons_self
  have hne : front ≠ [] := fun hnil =>
    h.names_above.ne_nil (List.prefix_nil.mp (hnil ▸ hfront.descends.prefix_path))
  have hparted : Path.parted (front ++ slashes ++ name) = (front, name) := by
    rw [Path.parted_below hopen hname,
      Path.withoutEndSlashes_append (hfront.descends.getLast?_ne houter) hne hslashes]
  refine ⟨front, slashes, rfl, hslashes, hopen, hparted, hfront, ?_, ?_, ?_⟩ <;> rw [hparted]
  · exact hne
  · exact hname.ne_nil
  · exact hfront.holds_eq_false (List.cons_ne_nil _ _)

end GoesMissing

/-! ## Making what is missing -/

/-- **Has made** — the path names a directory that is new and empty, and nothing else has been
changed but that directories are new. -/
structure HasMade (base : Location) (path : Text) (place : Location) (t t' : Tree) : Prop where
  frame : Frame [] t t'
  names : t'.Names base path place
  isDirectory : t'.isDirectory place
  empty : ∀ more, more ≠ [] → t'.at? (more ++ place) = none

theorem HasMade.behind (h : HasMade base path place t t') {t₀ : Tree} (hframe : Frame [] t₀ t) :
    HasMade base path place t₀ t' where
  frame := hframe.trans h.frame
  names := h.names
  isDirectory := h.isDirectory
  empty := h.empty

/-- A name that is not in a directory can be made there. -/
theorem takesDirectory_below {front slashes : Text} (h : t.Names base front place)
    (hd : t.isDirectory place) (hslashes : Path.IsSlashes slashes)
    (hopen : Path.IsOpen (front ++ slashes)) (hname : IsName name)
    (hlength : Text.byteLength (front ++ slashes ++ name) ≤ pathLimit)
    (hfree : t.at? (name :: place) = none) :
    t.TakesDirectory base (front ++ slashes ++ name) name place where
  byteLength_le := hlength
  leads := by
    obtain ⟨links, hle, hleads⟩ := h.leads
    have hprefix : front <+: front ++ slashes ++ name := by
      rw [List.append_assoc]
      exact List.prefix_append _ _
    have horigin : origin base (front ++ slashes ++ name) = origin base front := by
      rw [origin, origin, ← Path.isAbsolute_eq_of_prefix hprefix h.ne_nil]
    refine ⟨Path.moves front, ?_, links, hle, ?_⟩
    · rw [Path.moves_append_of_isOpen hopen, Path.moves_append_slashes _ hslashes,
        Path.moves_of_isProper hname.isProper]
    · rw [horigin]
      exact (leads_steps_iff hd).mp hleads
  isDirectory := hd
  name_byteLength_le := hname.byteLength_le
  free := hfree

theorem TakesDirectory.hasMade {parent : Location} (h : t.TakesDirectory base path name parent)
    (hnul : '\x00' ∉ path) (hempty : ∀ more, more ≠ [] → t.at? (more ++ name :: parent) = none) :
    (makeDirectoryUnlessThere base path).perform t = (.ok (), t.put (name :: parent) .directory) ∧
      HasMade base path (name :: parent) t (t.put (name :: parent) .directory) := by
  refine ⟨?_, frame_put_directory h.free, h.names_put hnul, ?_, ?_⟩
  · rw [makeDirectoryUnlessThere, perform_tryCatch, perform_makeDirectory_of_takesDirectory h hnul]
  · rw [Tree.isDirectory, at?_put _ _ _ _ (List.cons_ne_nil _ _), if_pos rfl]
    rfl
  · intro more hmore
    have hother : more ++ name :: parent ≠ name :: parent := by
      intro e
      exact hmore (List.append_left_eq_self.mp e)
    rw [at?_put _ _ _ _ (List.cons_ne_nil _ _), if_neg hother]
    exact hempty more hmore

/-- **Making what is missing** succeeds, if there are not more directories than can be made at
once. -/
theorem makeDirectoriesWithin_of_goesMissing (hsound : t.IsSound) {depth : Nat}
    (h : t.GoesMissing base above place (name :: names) path) (hdepth : names.length < depth) :
    ∃ t', (makeDirectoriesWithin base depth path).perform t = (.ok (), t') ∧
      HasMade base path (name :: names ++ place) t t' := by
  induction names generalizing name path depth with
  | nil =>
    obtain ⟨depth, rfl⟩ : ∃ d, depth = d + 1 := ⟨depth - 1, by omega⟩
    obtain ⟨front, slashes, rfl, hslashes, hopen, hfront⟩ := h.without_last
    cases hfront.descends
    have hname := h.isName name List.mem_cons_self
    have hfree : t.at? (name :: place) = none := h.missing rfl
    -- the directory above is there, also without the slashes behind it
    have hthere : ¬ t.LacksParent base (above ++ slashes ++ name) := by
      rintro ⟨-, -, hholds⟩
      have hlength := Nat.le_trans (Text.byteLength_le_of_prefix (List.prefix_append _ name))
        h.byteLength_le
      have hthere := h.names_above.withoutEndSlashes h.isDirectory hslashes hlength
      rw [Path.parted_below hopen hname.isProper, hthere.holds h.isDirectory] at hholds
      exact absurd hholds (by simp)
    rw [perform_makeDirectoriesWithin_of_not_lacksParent hthere]
    have htakes := takesDirectory_below h.names_above h.isDirectory hslashes hopen hname
      h.byteLength_le hfree
    obtain ⟨hperform, hmade⟩ := htakes.hasMade h.nul_not_mem fun more _ =>
      hsound.at?_append_eq_none hfree more
    exact ⟨_, hperform, hmade⟩
  | cons outer names ih =>
    obtain ⟨depth, rfl⟩ : ∃ d, depth = d + 1 := ⟨depth - 1, by omega⟩
    obtain ⟨front, slashes, rfl, hslashes, hopen, hparted, hfront, hlacks⟩ := h.lacksParent
    obtain ⟨t₁, habove, hmade₁⟩ := ih hfront (Nat.lt_of_succ_lt_succ hdepth)
    have hname := h.isName name List.mem_cons_self
    -- the last directory is made in the one that is new and empty
    have htakes := takesDirectory_below hmade₁.names hmade₁.isDirectory hslashes hopen hname
      h.byteLength_le (hmade₁.empty [name] (List.cons_ne_nil _ _))
    obtain ⟨hperform, hmade⟩ := htakes.hasMade h.nul_not_mem fun more _ => by
      have hnone := hmade₁.empty (more ++ [name]) (by simp)
      rwa [List.append_assoc] at hnone
    refine ⟨_, ?_, hmade.behind hmade₁.frame⟩
    rw [perform_makeDirectoriesWithin_of_lacksParent hlacks, perform_bind, ignoringExisting,
      perform_tryCatch, hparted, habove]
    dsimp only
    rw [if_neg hname.ne_stay]
    exact hperform

/-- **Too many** — where more directories are missing than can be made at once, none is made. -/
theorem lacksAbove_of_goesMissing {depth : Nat}
    (h : t.GoesMissing base above place (name :: names) path) (hdepth : depth ≤ names.length) :
    t.LacksAbove base depth path := by
  induction depth generalizing name names path with
  | zero => trivial
  | succ depth ih =>
    cases names with
    | nil => exact absurd hdepth (by simp)
    | cons outer rest =>
      obtain ⟨front, slashes, -, -, -, hparted, hfront, hlacks⟩ := h.lacksParent
      refine ⟨hlacks, ?_⟩
      rw [hparted]
      exact ih hfront (Nat.le_of_succ_le_succ hdepth)

/-! ## A file in what was missing -/

/-- The last step enters a name, so no slash is special. -/
theorem stepsToFile_append_enter (outer : List Path.Step) (name : Text) :
    stepsToFile (outer ++ [.enter name]) = outer ++ [.enter name] := by
  simp [stepsToFile]

/-- Where a file is put depends on how far the steps lead, and on nothing else. -/
theorem placeForFile_congr {here other : Location} {first second : List Path.Step} {limit : Nat}
    (hadvance : t.advance here (first ++ [.enter name]) = t.advance other (second ++ [.enter name])) :
    t.placeForFile limit here (first ++ [.enter name]) =
      t.placeForFile limit other (second ++ [.enter name]) := by
  unfold placeForFile
  rw [stepsToFile_append_enter, stepsToFile_append_enter, hadvance]

/-- A name that is not in a directory is where the file of that name is made. -/
theorem placeForFile_of_leads {here : Location} {outer : List Path.Step} {links limit : Nat}
    (h : t.Leads here outer links place) (hle : links ≤ limit) (hd : t.isDirectory place)
    (hlength : Text.byteLength name ≤ nameLimit) (hfree : t.at? (name :: place) = none) :
    t.placeForFile limit here (outer ++ [.enter name]) = .ok (name :: place) := by
  induction h generalizing limit with
  | done here =>
    have hmissing : t.advance here [.enter name] = .missing here name [] := by
      simp only [advance, hd, if_true, if_neg (Nat.not_lt_of_le hlength), hfree]
    unfold placeForFile
    rw [stepsToFile_append_enter, List.nil_append, hmissing]
  | stay hhere _ ih =>
    rw [← ih hle hd hfree]
    apply placeForFile_congr
    simp only [List.cons_append, advance, hhere, if_true]
  | slash hhere _ ih =>
    rw [← ih hle hd hfree]
    apply placeForFile_congr
    simp only [List.cons_append, advance, hhere, if_true]
  | up hhere _ ih =>
    rw [← ih hle hd hfree]
    apply placeForFile_congr
    simp only [List.cons_append, advance, hhere, if_true]
  | enter hhere hshort hentry hlink _ ih =>
    rw [← ih hle hd hfree]
    apply placeForFile_congr
    simp only [List.cons_append, advance, hhere, if_true, if_neg (Nat.not_lt_of_le hshort), hentry]
  | @link here place other target rest links hhere hshort htarget _ ih =>
    obtain ⟨limit, rfl⟩ : ∃ n, limit = n + 1 := ⟨limit - 1, by omega⟩
    have hlink : t.advance here (.enter other :: rest ++ [.enter name]) =
        .atLink here target (rest ++ [.enter name]) := by
      simp only [List.cons_append, advance, hhere, if_true, if_neg (Nat.not_lt_of_le hshort), htarget]
    have hfewer : links ≤ limit := by omega
    have hbehind := ih hfewer hd hfree
    rw [List.append_assoc] at hbehind
    unfold placeForFile
    rw [stepsToFile_append_enter, hlink]
    exact hbehind

/-- **A new file** — where the path leads to a name that is not there, opening makes it. -/
theorem perform_openFile_of_takesDirectory {parent : Location}
    (h : t.TakesDirectory base path name parent) (hnul : '\x00' ∉ path)
    (hend : path.getLast? ≠ some '/') :
    (openFile base path).perform t =
      (.ok (.file (name :: parent)), t.put (name :: parent) (.file [] false)) := by
  obtain ⟨outer, hmoves, links, hle, hleads⟩ := h.leads
  have hne : path ≠ [] := by
    rintro rfl
    exact absurd hmoves.symm (by simp [Path.moves, Text.pieces])
  have hsteps : Path.steps path = outer ++ [.enter name] := by
    rw [Path.steps_eq_moves_append, if_neg hend, List.append_nil, hmoves]
  have hplace : t.placeForFile linkLimit (origin base path) (Path.steps path) =
      .ok (name :: parent) := by
    rw [hsteps]
    exact placeForFile_of_leads hleads hle h.isDirectory h.name_byteLength_le h.free
  unfold openFile
  rw [if_neg (by simpa using hnul), if_neg hne, if_neg (Nat.not_lt_of_le h.byteLength_le),
    perform_bind, perform_get]
  dsimp only
  rw [hplace]
  dsimp only
  rw [h.free]
  rfl

/-! ## A nested path -/

/-- A nested path goes down from the root, and its first directory need only be missing. -/
theorem goesMissing_nested (base : Location) (h : t.at? [['a']] = none) {n : Nat}
    (hlength : Text.byteLength (Path.nested (n + 1)) ≤ pathLimit) :
    t.GoesMissing base ['/'] [] (List.replicate (n + 1) ['a']) (Path.nested (n + 1)) where
  descends := by
    clear hlength
    induction n with
    | zero => exact .further [] ['a'] .here (by decide) (by decide)
    | succ n ih =>
      have hstep : Path.nested (n + 2) = Path.nested (n + 1) ++ ['/'] ++ ['a'] := by
        rw [Path.nested_succ, List.append_assoc]
        rfl
      rw [hstep, List.replicate_succ]
      exact .further ['/'] ['a'] ih (by decide) (.inr (by simp))
  names_above := ⟨by simp, by decide, by decide, 0, Nat.zero_le _, .slash (isDirectory_nil t) (.done [])⟩
  isDirectory := isDirectory_nil t
  isName name hname := by
    obtain rfl := List.eq_of_mem_replicate hname
    decide
  missing hfirst := by
    have hmem := List.mem_of_getLast? hfirst
    rw [List.eq_of_mem_replicate hmem]
    exact h
  byteLength_le := hlength

end Tree

end LineShell
