/-
# LineShell.Proofs.Target.Opening -- what opening a target does to everything else

Opening a target for writing may make directories and make or empty a file. Away from that
file nothing that stands in the tree is touched, and all that is new are directories which
proper fronts of the target name (`Tree.Spares`); where opening fails, this holds of the whole
tree. Once written and closed, the file holds exactly the text, and the target names it.

Directories that are missing are no reason to fail: a target that goes down from a directory
by ordinary names is opened, unless more directories are missing than can be made at once, and
then nothing is touched (`openWriter_of_goesMissing`, `openWriter_of_many`).

A target that was touched is touched again, and nothing changes (`touch_of_ready`): it is there,
so the directories above it are there too and there is nothing to make.
-/

import LineShell.Proofs.Session.Transparent
import LineShell.Proofs.Target.Breaks
import LineShell.Proofs.Tree.Missing
import LineShell.Proofs.Tree.Reopened

namespace LineShell

/-! ## Proper fronts -/

namespace Path

variable {path : Text}

/-- Only slashes have themselves as their directory part. -/
theorem isSlashes_of_directoryPart_eq (h : directoryPart path = path) : IsSlashes path := by
  obtain ⟨front, hpath, hopen, hpart⟩ := exists_isOpen path
  obtain ⟨slashes, hfront, -⟩ := exists_isSlashes front
  -- nothing stands behind the front, and nothing can have been dropped from it
  have hshort : (withoutEndSlashes front).length = (front ++ lastName path).length := by
    rw [← hpart, h, ← hpath]
  have hlong : front.length = (withoutEndSlashes front ++ slashes).length :=
    congrArg List.length hfront
  rw [List.length_append] at hshort hlong
  have hlast : lastName path = [] := List.length_eq_zero_iff.mp (by omega)
  have hkept : withoutEndSlashes front = front := by
    rw [← hpart, h, hpath, hlast, List.append_nil]
  rw [hlast, List.append_nil] at hpath
  subst hpath
  rcases hopen with rfl | hslash
  · simp [IsSlashes]
  · unfold withoutEndSlashes at hkept
    split at hkept
    · rename_i hall
      exact fun c hc => of_decide_eq_true (List.all_eq_true.mp hall c hc)
    · -- what is left behind dropping slashes does not end in one
      have hdropped : path.reverse.dropWhile (· = '/') = path.reverse :=
        List.reverse_inj.mp (by rw [hkept, List.reverse_reverse])
      have hhead := List.head?_dropWhile_not (fun c : Char => decide (c = '/')) path.reverse
      rw [hdropped, List.head?_reverse, hslash] at hhead
      simp at hhead

end Path

namespace Tree

/-- A path of slashes names the root. -/
theorem Names.eq_nil_of_isSlashes {t : Tree} {base place : Location} {path : Text}
    (h : t.Names base path place) (hslashes : Path.IsSlashes path) : place = [] := by
  obtain ⟨c, rest, rfl⟩ := List.exists_cons_of_ne_nil h.ne_nil
  obtain rfl := hslashes c List.mem_cons_self
  obtain ⟨links, -, hleads⟩ := h.leads
  have horigin : origin base ('/' :: rest) = [] := rfl
  have hroot : t.Leads [] (Path.steps ('/' :: rest)) 0 [] := by
    apply (leads_steps_iff (isDirectory_nil t)).mpr
    rw [Path.moves_of_isSlashes hslashes]
    exact .done []
  rw [horigin] at hleads
  exact hleads.functional hroot

/-! ## Sparing -/

/-- **Spares** — away from some places everything that was there is as it was, and all that is
new are directories which proper fronts of the path name. -/
structure Spares (base : Location) (path : Text) (places : List Location) (t t' : Tree) : Prop where
  unchanged : ∀ {place entry}, place ∉ places → t.at? place = some entry →
    t'.at? place = some entry
  new : ∀ {place}, place ∉ places → t.at? place = none → t'.at? place ≠ none →
    t'.isDirectory place ∧ ∃ front, front <+: path ∧ front ≠ path ∧ t'.Names base front place

variable {base place : Location} {path : Text} {places : List Location} {t t' t'' : Tree}

/-- Directories that are made for a directory part spare the rest. -/
theorem Grown.spares (h : Grown base (Path.directoryPart path) t t') (places : List Location) :
    Spares base path places t t' where
  unchanged {place entry} _ hentry := by
    rcases h.frame.outside (List.not_mem_nil (a := place)) with hsame | ⟨hnone, -⟩
    · rw [hsame, hentry]
    · rw [hentry] at hnone
      exact absurd hnone (by simp)
  new {place} _ hold hnew := by
    have hd : t'.at? place = some .directory := by
      rcases h.frame.outside (List.not_mem_nil (a := place)) with hsame | ⟨-, hd⟩
      · exact absurd (hsame.trans hold) hnew
      · exact hd
    obtain ⟨front, hfront, hnames⟩ := h.named hold hnew
    have hpart := Path.directoryPart_prefix_self path
    refine ⟨by simpa [isDirectory] using hd, front, hfront.trans hpart, ?_, hnames⟩
    rintro rfl
    -- the whole path would be slashes and name the root
    have hslashes := Path.isSlashes_of_directoryPart_eq (hpart.eq_of_length_le hfront.length_le)
    obtain rfl := hnames.eq_nil_of_isSlashes hslashes
    rw [at?_nil] at hold
    exact absurd hold (by simp)

namespace Spares

/-- A file that is put at a spared place changes nothing elsewhere. -/
theorem put_file (h : Spares base path places t t') (hplace : place ∈ places) {executable : Bool}
    (htakes : t'.TakesFile place executable) (text : Text) :
    Spares base path places t (t'.put place (.file text executable)) := by
  have helse : ∀ {other}, other ∉ places →
      (t'.put place (.file text executable)).at? other = t'.at? other := by
    intro other hother
    have hne : other ≠ place := fun e => hother (e ▸ hplace)
    rw [at?_put _ _ _ _ htakes.ne_nil, if_neg hne]
  constructor
  · intro other entry hother hentry
    rw [helse hother]
    exact h.unchanged hother hentry
  · intro other hother hold hnew
    rw [helse hother] at hnew
    have hframe := frame_put_file htakes text
    obtain ⟨hd, front, hfront, hne, hnames⟩ := h.new hother hold hnew
    exact ⟨hframe.isDirectory hd, front, hfront, hne, hnames.frame hframe⟩

theorem writeFile (h : Spares base path places t t') (hplace : place ∈ places) (early : Nat)
    (text : Text) : Spares base path places t (t'.writeFile place early text) := by
  unfold Tree.writeFile
  split
  · rename_i held executable hfile
    exact h.put_file hplace (.inr ⟨held, hfile⟩) _
  · exact h

end Spares

/-! ## What was opened is there -/

/-- A path that names a file ends in its name. -/
theorem Names.lastName_ne_nil (h : t.Names base path place) (hplace : t.isDirectory place = false) :
    Path.lastName path ≠ [] := by
  intro hlast
  obtain ⟨front, hpath, hopen, -⟩ := Path.exists_isOpen path
  rw [hlast, List.append_nil] at hpath
  subst hpath
  obtain ⟨links, -, hleads⟩ := h.leads
  -- a slash at the end would ask for a directory
  rw [Path.steps_eq_moves_append, if_pos (hopen.resolve_left h.ne_nil), leads_append_iff] at hleads
  obtain ⟨mid, m, n, -, hslash, -⟩ := hleads
  cases hslash with
  | slash hd hrest =>
    cases hrest
    rw [hplace] at hd
    exact absurd hd (by simp)

end Tree

namespace Target

open TreeAction

variable {host : Host} {path directory : Text} {w w' : World} {t : Tree} {place : Location}
  {handle : Handle}

/-! ## The directories above -/

theorem grown_makeAbove (host : Host) (target : Text) (t : Tree) :
    Tree.Grown host.directory (Path.directoryPart target) t
      ((makeAbove host target).perform t).2 := by
  unfold makeAbove
  split
  · exact Tree.grown_makeDirectoriesWithin host.directory host.nestingLimit _ t
  · exact .refl host.directory _ t

/-- Above a file or a device that is there, nothing has to be made. -/
theorem perform_makeAbove_of_names {target : Text} (h : t.Names host.directory target place)
    (hplace : t.isDirectory place = false)
    (hlimit : Path.directoryPart target ≠ [] → 0 < host.nestingLimit) :
    (makeAbove host target).perform t = (.ok (), t) := by
  unfold makeAbove
  split
  · rename_i hpart
    obtain ⟨mid, hmid, hd⟩ := h.directoryPart hpart (h.lastName_ne_nil hplace)
    obtain ⟨limit, hlimit⟩ := Nat.exists_eq_succ_of_ne_zero (hlimit hpart).ne'
    rw [hlimit]
    exact Tree.perform_makeDirectoriesWithin_of_names hmid hd limit
  · rfl

/-! ## Opening -/

/-- What opening does once the directories above are made. -/
theorem perform_openWriter_of_makeAbove {t₁ t₂ : Tree}
    (habove : (makeAbove host (resolve path directory)).perform w.tree = (.ok (), t₁))
    (hopen : (Tree.openFile host.directory (resolve path directory)).perform t₁ = (.ok handle, t₂)) :
    ∃ events, (openWriter host path directory).perform w =
      (.ok ⟨handle, [], .empty⟩, w.after t₂ events) := by
  rw [perform_openWriter]
  simp only [Action.perform_bind, Action.perform_onTree, habove, Action.perform_note,
    World.tree_after, World.limit_after, World.after_after, hopen, Action.perform_emit,
    Action.perform_pure]
  exact ⟨_, rfl⟩

/-- **Opening** comes to a tree in which directories have grown, and fails there or opens the
file in it. -/
theorem openWriter_grown (host : Host) (path directory : Text) (w : World) :
    ∃ t, Tree.Grown host.directory (Path.directoryPart (resolve path directory)) w.tree t ∧
      ((∃ fault events, (openWriter host path directory).perform w =
          (.error fault, w.after t events)) ∨
        ∃ handle t' events,
          (Tree.openFile host.directory (resolve path directory)).perform t = (.ok handle, t') ∧
          (openWriter host path directory).perform w =
            (.ok ⟨handle, [], .empty⟩, w.after t' events)) := by
  have hgrown := grown_makeAbove host (resolve path directory) w.tree
  rcases habove : (makeAbove host (resolve path directory)).perform w.tree with
    ⟨fault | _, t⟩ <;> rw [habove] at hgrown
  · refine ⟨t, hgrown, .inl ⟨fault, [], ?_⟩⟩
    rw [perform_openWriter, Action.perform_bind, Action.perform_onTree, habove]
  · refine ⟨t, hgrown, ?_⟩
    rcases Tree.openFile_cases host.directory (resolve path directory) t with
      ⟨fault, hopen, -⟩ | ⟨device, hopen⟩ | ⟨place, executable, -, -, -, -, hopen⟩
    · refine .inl ⟨fault, (openingMessage (resolve path directory)).eventsAt w.limit, ?_⟩
      rw [perform_openWriter]
      simp only [Action.perform_bind, Action.perform_onTree, habove, Action.perform_note,
        World.tree_after, World.limit_after, World.after_after, hopen, List.append_nil,
        List.nil_append]
    · obtain ⟨events, hperform⟩ := perform_openWriter_of_makeAbove habove hopen
      exact .inr ⟨_, _, events, hopen, hperform⟩
    · obtain ⟨events, hperform⟩ := perform_openWriter_of_makeAbove habove hopen
      exact .inr ⟨_, _, events, hopen, hperform⟩

/-- Filling a target that opens as a file comes to a result, and the text is written. -/
theorem perform_fill_of_file (text : Text)
    (h : (openWriter host path directory).perform w = (.ok ⟨.file place, [], .empty⟩, w')) :
    ∃ early w'', (fill host path directory text).perform w = (.ok (), w'') ∧
      w''.tree = w'.tree.writeFile place early text := by
  let written := Writer.write ⟨.file place, [], .empty⟩ text
  have hdone : written.2 = true := Writer.write_of_accepts rfl text
  have htext : written.1.text = text := Writer.text_write ⟨.file place, [], .empty⟩ text
  refine ⟨written.1.buffer.passed, w'.after (written.1.flushedTo w'.tree) [.closed (.file place)],
    ?_, ?_⟩
  · simp only [fill, Action.perform_bind, h, perform_closeWriter, Action.perform_ofExcept]
    rw [hdone, Writer.settled_of_accepts rfl]
    rfl
  · show w'.tree.writeFile place written.1.buffer.passed written.1.text = _
    rw [htext]

/-- Touching a target that opens comes to a result. -/
theorem perform_touch_of_open
    (h : (openWriter host path directory).perform w = (.ok ⟨handle, [], .empty⟩, w')) :
    ∃ w'', (touch host path directory).perform w = (.ok (), w'') ∧
      w''.tree = Writer.flushedTo ⟨handle, [], .empty⟩ w'.tree := by
  refine ⟨w'.after (Writer.flushedTo ⟨handle, [], .empty⟩ w'.tree) [.closed handle], ?_, rfl⟩
  simp only [touch, Action.perform_bind, h, perform_closeWriter, Action.perform_ofExcept,
    Writer.settled_empty]

/-! ## Touching twice -/

/-- Nothing is written to what is ready when it is closed untouched. -/
theorem at?_flushedTo_of_ready (h : t.ReadyAt place handle) (other : Location) :
    (Writer.flushedTo ⟨handle, [], .empty⟩ t).at? other = t.at? other := by
  cases handle with
  | file same =>
    obtain ⟨rfl, executable, hfile⟩ := h
    show (t.writeFile same 0 []).at? other = t.at? other
    by_cases hother : other = same
    · rw [hother, hfile]
      exact Tree.at?_writeFile_of_empty hfile 0 []
    · simp only [Tree.writeFile, hfile]
      rw [Tree.at?_put _ _ _ _ (Tree.TakesFile.ne_nil (.inr ⟨[], hfile⟩)), if_neg hother]
  | device device => rfl

/-- Where one target below a directory is touched with success, directories can be made. -/
theorem nestingLimit_pos_of_touch (h : (touch host path directory).perform w = (.ok (), w'))
    (hpart : Path.directoryPart (resolve path directory) ≠ []) : 0 < host.nestingLimit := by
  by_contra hlimit
  have hnone : host.nestingLimit = 0 := Nat.eq_zero_of_not_pos hlimit
  have hdeep : IsTooDeep host w.tree path directory := by
    refine ⟨hpart, ?_⟩
    rw [hnone]
    trivial
  have htouch : (touch host path directory).perform w = (.error .tooDeep, w) := by
    simp only [touch, Action.perform_bind, hdeep.perform_eq_error]
  rw [htouch] at h
  exact absurd (congrArg Prod.fst h) (by simp)

/-- **Touched again** — what is ready under a target is touched with success, and nothing
changes. -/
theorem touch_of_ready (h : w.tree.Names host.directory (resolve path directory) place)
    (hready : w.tree.ReadyAt place handle)
    (hlimit : Path.directoryPart (resolve path directory) ≠ [] → 0 < host.nestingLimit) :
    ∃ w', (touch host path directory).perform w = (.ok (), w') ∧
      ∀ other, w'.tree.at? other = w.tree.at? other := by
  have habove := perform_makeAbove_of_names h hready.not_isDirectory hlimit
  obtain ⟨t, hopen, hsame⟩ := Tree.openFile_again h hready
  obtain ⟨events, hperform⟩ := perform_openWriter_of_makeAbove habove hopen
  obtain ⟨w', htouch, htree⟩ := perform_touch_of_open hperform
  refine ⟨w', htouch, fun other => ?_⟩
  have hready' : t.ReadyAt place handle := hready.congr hsame
  calc w'.tree.at? other
      = t.at? other := by rw [htree]; exact at?_flushedTo_of_ready hready' other
    _ = w.tree.at? other := hsame other

/-- A target that was touched with success is ready. -/
theorem ready_of_touch (h : (touch host path directory).perform w = (.ok (), w')) :
    ∃ place handle, w'.tree.Names host.directory (resolve path directory) place ∧
      w'.tree.ReadyAt place handle := by
  obtain ⟨t, -, ⟨fault, events, hfail⟩ | ⟨handle, t', events, hopen, hperform⟩⟩ :=
    openWriter_grown host path directory w
  · have htouch : (touch host path directory).perform w = (.error fault, w.after t events) := by
      simp only [touch, Action.perform_bind, hfail]
    rw [htouch] at h
    exact absurd (congrArg Prod.fst h) (by simp)
  · obtain ⟨place, hnames, hready⟩ := Tree.ready_of_perform hopen
    obtain ⟨w'', htouch, htree⟩ := perform_touch_of_open hperform
    rw [htouch, Prod.mk.injEq] at h
    obtain ⟨-, rfl⟩ := h
    have hsame : ∀ other, w''.tree.at? other = t'.at? other := by
      intro other
      rw [htree]
      exact at?_flushedTo_of_ready hready other
    exact ⟨place, handle, hnames.frame (.of_at?_eq hsame), hready.congr hsame⟩

/-! ## Directories that are missing -/

section Missing

variable {above name : Text} {names : List Text}

/-- The directory part of a target that goes missing goes missing without its last name. -/
theorem directoryPart_of_goesMissing {base : Location} {target outer : Text}
    (h : t.GoesMissing base above place (name :: outer :: names) target) :
    ∃ front slashes, target = front ++ slashes ++ name ∧ Path.IsSlashes slashes ∧
      Path.IsOpen (front ++ slashes) ∧ Path.directoryPart target = front ∧ front ≠ [] ∧
      t.GoesMissing base above place (outer :: names) front := by
  obtain ⟨front, slashes, rfl, hslashes, hopen, hparted, hfront, hlacks⟩ := h.lacksParent
  refine ⟨front, slashes, rfl, hslashes, hopen, ?_, ?_, hfront⟩
  · have hsplit := Path.splitLast_of_isOpen hopen (h.isProper name List.mem_cons_self).slash_not_mem
    have hlast : Path.lastName (front ++ slashes ++ name) ≠ [] := by
      rw [Path.lastName, hsplit]
      exact (h.isProper name List.mem_cons_self).ne_nil
    rw [Path.parted, if_neg hlast] at hparted
    exact congrArg Prod.fst hparted
  · have hne := hlacks.1
    rwa [hparted] at hne

/-- **Missing directories** are made, and the target is opened in the last of them. -/
theorem openWriter_of_goesMissing (hsound : w.tree.IsSound) (hne : names ≠ [])
    (h : w.tree.GoesMissing host.directory above place (name :: names) (resolve path directory))
    (hfew : names.length ≤ host.nestingLimit) :
    ∃ w', (openWriter host path directory).perform w =
      (.ok ⟨.file (name :: names ++ place), [], .empty⟩, w') := by
  obtain ⟨outer, names, rfl⟩ := List.exists_cons_of_ne_nil hne
  obtain ⟨front, slashes, htarget, hslashes, hopen, hpart, hfrontne, hfront⟩ :=
    directoryPart_of_goesMissing h
  obtain ⟨t, hmake, hmade⟩ := Tree.makeDirectoriesWithin_of_goesMissing hsound hfront hfew
  have hname := h.isName name List.mem_cons_self
  have habove : (makeAbove host (resolve path directory)).perform w.tree = (.ok (), t) := by
    rw [makeAbove, hpart, if_pos hfrontne]
    exact hmake
  -- the last directory is new and empty, so the file is not there
  have htakes : t.TakesDirectory host.directory (resolve path directory) name
      (outer :: names ++ place) := by
    have hlength := h.byteLength_le
    rw [htarget] at hlength ⊢
    exact Tree.takesDirectory_below hmade.names hmade.isDirectory hslashes hopen hname hlength
      (hmade.empty [name] (List.cons_ne_nil _ _))
  have hfile := Tree.perform_openFile_of_takesDirectory htakes h.nul_not_mem
    (h.descends.getLast?_ne hname.isProper)
  obtain ⟨events, hperform⟩ := perform_openWriter_of_makeAbove habove hfile
  exact ⟨_, hperform⟩

/-- **Too many** directories that are missing make opening fail, and nothing is made. -/
theorem openWriter_of_many
    (h : w.tree.GoesMissing host.directory above place (name :: names) (resolve path directory))
    (hmany : host.nestingLimit < names.length) :
    (openWriter host path directory).perform w = (.error .tooDeep, w) := by
  have hne : names ≠ [] := fun hnil => absurd hmany (by simp [hnil])
  obtain ⟨outer, names, rfl⟩ := List.exists_cons_of_ne_nil hne
  obtain ⟨front, slashes, -, -, -, hpart, hfrontne, hfront⟩ := directoryPart_of_goesMissing h
  have hlacks := Tree.lacksAbove_of_goesMissing hfront (Nat.le_of_lt_succ hmany)
  rw [← hpart] at hfrontne hlacks
  exact IsTooDeep.perform_eq_error ⟨hfrontne, hlacks⟩

end Missing

/-! ## All effects -/

/-- A target that does not open spares everything. -/
theorem spares_of_openWriter_error {fault : Fault}
    (h : (openWriter host path directory).perform w = (.error fault, w')) :
    w.tree.Spares host.directory (resolve path directory) [] w'.tree := by
  obtain ⟨t, hgrown, ⟨fault', events, hperform⟩ | ⟨handle, t', events, -, hperform⟩⟩ :=
    openWriter_grown host path directory w <;> rw [hperform, Prod.mk.injEq] at h
  · rw [← h.2]
    exact hgrown.spares []
  · exact absurd h.1 (by simp)

/-- A target that opens is a device, or a file that takes the text and spares the rest. -/
theorem filled_of_openWriter {writer : Writer} (text : Text)
    (h : (openWriter host path directory).perform w = (.ok writer, w')) :
    (∃ device, writer.handle = .device device ∧
      w.tree.Spares host.directory (resolve path directory) [] w'.tree) ∨
    ∃ place executable w'', writer.handle = .file place ∧
      (fill host path directory text).perform w = (.ok (), w'') ∧
      w''.tree.Names host.directory (resolve path directory) place ∧
      w''.tree.at? place = some (.file text executable) ∧
      w.tree.Spares host.directory (resolve path directory) [place] w''.tree := by
  obtain ⟨t, hgrown, ⟨fault, events, hperform⟩ | ⟨handle, t', events, hopen, hperform⟩⟩ :=
    openWriter_grown host path directory w <;> rw [hperform, Prod.mk.injEq] at h
  · exact absurd h.1 (by simp)
  obtain rfl := Except.ok.inj h.1
  obtain ⟨place, hnames, hready⟩ := Tree.ready_of_perform hopen
  obtain ⟨-, -, -, place', -, ⟨executable, htakes, rfl, rfl⟩ | ⟨⟨device, rfl⟩, -, rfl⟩⟩ :=
    Tree.openFile_of_perform hopen
  · -- a file: what is written takes the place of the empty text
    right
    obtain ⟨rfl, executable', hempty⟩ := hready
    obtain ⟨early, w'', hfill, htree⟩ := perform_fill_of_file text hperform
    refine ⟨place', executable', w'', rfl, hfill, ?_, ?_, ?_⟩ <;> rw [htree, World.tree_after]
    · exact hnames.frame (Tree.frame_writeFile _ place' early text)
    · exact Tree.at?_writeFile_of_empty hempty early text
    · have hput := (hgrown.spares [place']).put_file List.mem_cons_self htakes []
      exact hput.writeFile List.mem_cons_self early text
  · left
    rw [← h.2]
    exact ⟨device, rfl, hgrown.spares []⟩

/-- **Opening a target** — if it fails nothing but directories is new. If it opens a file, and
the text is written and the file closed, the target names the file and it holds the text; all
the rest is spared. In both cases the new directories are named by proper fronts of the
target. Directories that are missing do not make it fail, unless there are too many of them.
Touching a target with success can be done again, and the tree stays the same. -/
theorem opening_effects (host : Host) (path directory text : Text) (w : World) :
    let base := host.directory
    let target := resolve path directory
    (∀ fault w', (openWriter host path directory).perform w = (.error fault, w') →
      w.tree.Spares base target [] w'.tree) ∧
    (∀ writer w', (openWriter host path directory).perform w = (.ok writer, w') →
      (∃ device, writer.handle = .device device ∧ w.tree.Spares base target [] w'.tree) ∨
      ∃ place executable w'', writer.handle = .file place ∧
        (fill host path directory text).perform w = (.ok (), w'') ∧
        w''.tree.Names base target place ∧
        w''.tree.at? place = some (.file text executable) ∧
        w.tree.Spares base target [place] w''.tree) ∧
    (∀ above place last names, w.tree.IsSound → names ≠ [] →
      w.tree.GoesMissing base above place (last :: names) target →
      (names.length ≤ host.nestingLimit → ∃ w', (openWriter host path directory).perform w =
        (.ok ⟨.file (last :: names ++ place), [], .empty⟩, w')) ∧
      (host.nestingLimit < names.length →
        (openWriter host path directory).perform w = (.error .tooDeep, w))) ∧
    ∀ w', (touch host path directory).perform w = (.ok (), w') →
      ∃ w'', (touch host path directory).perform w' = (.ok (), w'') ∧
        ∀ place, w''.tree.at? place = w'.tree.at? place := by
  intro base target
  refine ⟨?_, ?_, ?_, ?_⟩
  · intro fault w' hfail
    exact spares_of_openWriter_error hfail
  · intro writer w' hopen
    exact filled_of_openWriter text hopen
  · intro above place last names hsound hne hmissing
    exact ⟨openWriter_of_goesMissing hsound hne hmissing, openWriter_of_many hmissing⟩
  · intro w' htouch
    obtain ⟨place, handle, hnames, hready⟩ := ready_of_touch htouch
    exact touch_of_ready hnames hready (nestingLimit_pos_of_touch htouch)

/-- A file in a directory that is missing, below a link that leads through another one. -/
theorem opening_effects_link :
    let host : Host := ⟨[], [], none, 990⟩
    let w : World := ⟨Tree.empty.put ["way"] (.link "dev/fd/.."), .quiet, []⟩
    let place : Location := ["c", "new", "self", "proc"]
    ∃ executable w₁ w₂ w₃, (fill host "way//new/c" "/" "text").perform w = (.ok (), w₁) ∧
      w₁.tree.Names [] "/way//new/c" place ∧ w₁.tree.at? place = some (.file "text" executable) ∧
      w.tree.Spares [] "/way//new/c" [place] w₁.tree ∧
      (touch host "way//new/c" "/").perform w = (.ok (), w₂) ∧
      (touch host "way//new/c" "/").perform w₂ = (.ok (), w₃) ∧
      ∀ other, w₃.tree.at? other = w₂.tree.at? other := by
  intro host w place
  have hsound : w.tree.IsSound :=
    Tree.isSound_empty.put (by decide) (Tree.isDirectory_nil _) (by decide +kernel)
  have hdescends : Path.Descends "/way" ["c", "new"] "/way//new/c" :=
    .further "/" "c" (.further "//" "new" .here (by decide) (by decide)) (by decide) (by decide)
  have hlink : w.tree.locate [] "/way" = .ok ["self", "proc"] := by decide +kernel
  have hmissing : w.tree.GoesMissing [] "/way" ["self", "proc"] ["c", "new"] "/way//new/c" :=
    { descends := hdescends
      names_above := (Tree.locate_eq_ok_iff (by decide)).mp hlink
      isDirectory := by decide +kernel
      isName := by decide
      missing := by
        intro name hname
        obtain rfl : "new" = name := Option.some.inj hname
        decide +kernel
      byteLength_le := by decide }
  obtain ⟨-, hopens, hmakes, htwice⟩ := opening_effects host "way//new/c" "/" "text" w
  obtain ⟨w', hopen⟩ := (hmakes "/way" ["self", "proc"] "c" ["new"] hsound (by decide) hmissing).1
    (by decide)
  rcases hopens _ _ hopen with ⟨device, hdevice, -⟩ |
    ⟨file, executable, w₁, hfile, hfill, hnames, htext, hspares⟩
  · exact absurd hdevice (by simp)
  · obtain rfl : place = file := Handle.file.inj hfile
    obtain ⟨w₂, htouch, -⟩ := perform_touch_of_open hopen
    obtain ⟨w₃, hagain, hsame⟩ := htwice w₂ htouch
    exact ⟨executable, w₁, w₂, w₃, hfill, hnames, htext, hspares, htouch, hagain, hsame⟩

/-- A target below a thousand missing directories is not opened, though there is nothing else
in its way. -/
theorem opening_nested_fails :
    let host : Host := ⟨[], [], none, 990⟩
    let w : World := ⟨Tree.empty, .quiet, []⟩
    let names := List.replicate 1000 ['a']
    w.tree.IsSound ∧
      w.tree.GoesMissing [] "/" [] (['a'] :: names) (resolve (Path.nested 1001) "/") ∧
      (openWriter host (Path.nested 1001) "/").perform w = (.error .tooDeep, w) := by
  intro host w names
  have hresolve : resolve (Path.nested 1001) "/" = Path.nested 1001 :=
    Path.join_of_isAbsolute (Path.isAbsolute_nested 1000) _
  have hmissing : w.tree.GoesMissing [] "/" [] (['a'] :: names) (resolve (Path.nested 1001) "/") := by
    rw [hresolve]
    exact Tree.goesMissing_nested [] (by decide +kernel) (by decide +kernel)
  refine ⟨Tree.isSound_empty, hmissing, openWriter_of_many hmissing ?_⟩
  rw [List.length_replicate]
  decide

end Target

end LineShell
