/-
# LineShell.Proofs.Tree.Ways -- ways that are put together

A path that is written as two paths with a slash between them is followed in two parts: the
moves of the first path, then the steps of the second (`Path.steps_append_slash`). What the
first path asks for at its end, that a directory has been reached, is asked for by the second
one when it begins.

Ways are put together and taken apart at any step, and the links add up
(`Leads.append`, `leads_append_iff`). A way leads to one location through one number of links
(`Leads.links_eq`). It stays what it is as long as nothing is lost of the tree but texts of
files (`Leads.frame`).

A path names a location if the system takes it at all and its steps lead there through few
enough links (`Names`). The path of a directory in a sound tree leads back to it and meets no
link (`leads_toPath`), so that the path can stand for the directory wherever a way begins.
-/

import LineShell.Proofs.Tree.Canonical
import LineShell.Proofs.Tree.Plain

namespace LineShell

/-! ## Moves -/

namespace Path

/-- **Moves** — the steps that a path asks for by its names, without the slash at the end. -/
def moves (path : Text) : List Step :=
  ((Text.pieces '/' path).filter (· ≠ [])).map Step.ofName

variable {path first second name : Text}

theorem steps_eq_moves_append (path : Text) :
    steps path = moves path ++ if path.getLast? = some '/' then [.slash] else [] := rfl

/-- The moves of two paths with a slash between them are those of the one and the other. -/
theorem moves_append_slash (first second : Text) :
    moves (first ++ '/' :: second) = moves first ++ moves second := by
  rw [moves, Text.pieces_append_sep, List.filter_append, List.map_append]
  rfl

theorem moves_cons_slash (path : Text) : moves ('/' :: path) = moves path :=
  moves_append_slash [] path

theorem getLast?_append_of_ne_nil (first : Text) (h : second ≠ []) :
    (first ++ second).getLast? = second.getLast? := by
  rw [List.getLast?_append, List.getLast?_eq_some_getLast h]
  rfl

theorem getLast?_append_slash (first : Text) (h : second ≠ []) :
    (first ++ '/' :: second).getLast? = second.getLast? := by
  rw [getLast?_append_of_ne_nil _ (List.cons_ne_nil _ _), List.getLast?_cons,
    List.getLast?_eq_some_getLast h]
  rfl

/-- The end of a path decides about the slash, and that is the end of the second part. -/
theorem steps_append_slash (first : Text) (h : second ≠ []) :
    steps (first ++ '/' :: second) = moves first ++ steps second := by
  rw [steps_eq_moves_append, steps_eq_moves_append, getLast?_append_slash first h,
    moves_append_slash, List.append_assoc]

theorem steps_cons_slash (h : path ≠ []) : steps ('/' :: path) = steps path :=
  steps_append_slash [] h

/-- A slash at the end asks for a directory. -/
theorem steps_append_single_slash (path : Text) : steps (path ++ ['/']) = moves path ++ [.slash] := by
  have hmoves : moves (path ++ ['/']) = moves path :=
    (moves_append_slash path []).trans (List.append_nil _)
  rw [steps_eq_moves_append, hmoves, if_pos (by simp)]

theorem ofName_of_isProper (h : IsProper name) : Step.ofName name = .enter name := by
  rw [Step.ofName, if_neg h.ne_stay, if_neg h.ne_up]

theorem moves_of_isProper (h : IsProper name) : moves name = [.enter name] := by
  rw [moves, Text.pieces_of_not_mem h.slash_not_mem]
  simp [h.ne_nil, ofName_of_isProper h]

/-- A path that is not empty and does not begin with a slash asks for something. -/
theorem moves_ne_nil {c : Char} {rest : Text} (hc : c ≠ '/') : moves (c :: rest) ≠ [] := by
  obtain ⟨piece, others, hpieces⟩ := List.exists_cons_of_ne_nil (Text.pieces_ne_nil '/' rest)
  simp [moves, Text.pieces, hc, hpieces]

theorem steps_ne_nil (h : path ≠ []) : steps path ≠ [] := by
  induction path with
  | nil => exact absurd rfl h
  | cons c rest ih =>
    by_cases hc : c = '/'
    · subst hc
      by_cases hrest : rest = []
      · rw [hrest]
        decide
      · rw [steps_cons_slash hrest]
        exact ih hrest
    · rw [steps_eq_moves_append]
      exact List.append_ne_nil_of_left_ne_nil (moves_ne_nil hc) _

end Path

/-! ## The path of a location -/

namespace Location

/-- The steps to a location from the root. -/
def ways (place : Location) : List Path.Step := place.reverse.map .enter

theorem ways_cons (name : Text) (place : Location) :
    ways (name :: place) = place.ways ++ [.enter name] := by
  simp [ways]

/-- **Front** — what the paths of the entries of a directory have in front of the slash and
the name: the path of the directory, and nothing for the root. -/
def front : Location → Text
  | [] => []
  | name :: above => toPath (name :: above)

theorem toPath_cons (name : Text) (place : Location) :
    toPath (name :: place) = place.front ++ '/' :: name := by
  cases place with
  | nil => simp [toPath, front]
  | cons outer above =>
    have hnames : (outer :: above).reverse ≠ [] := by simp
    rw [toPath, List.reverse_cons, Text.intercalate_append hnames (List.cons_ne_nil name [])]
    simp [front, toPath]

/-- The path of a location asks for its names, one after the other. -/
theorem moves_toPath {place : Location} (h : ∀ name ∈ place, IsProper name) :
    Path.moves place.toPath = place.ways := by
  induction place with
  | nil => rfl
  | cons name above ih =>
    have habove := ih fun other hother => h other (List.mem_cons_of_mem _ hother)
    have hfront : Path.moves (front above) = ways above := by
      cases above with
      | nil => rfl
      | cons outer rest => exact habove
    rw [toPath_cons, Path.moves_append_slash, hfront, Path.moves_of_isProper (h name List.mem_cons_self),
      ways_cons]

theorem moves_front {place : Location} (h : ∀ name ∈ place, IsProper name) :
    Path.moves place.front = place.ways := by
  cases place with
  | nil => rfl
  | cons name above => exact moves_toPath h

/-- What is taken from a location stands behind its front: only the path of the root ends in
a slash. -/
theorem join_toPath {place : Location} (h : ∀ name ∈ place, IsProper name) {relative : Text}
    (hrelative : Path.isAbsolute relative = false) :
    Path.join place.toPath relative = place.front ++ '/' :: relative := by
  rw [Path.join, if_neg (by simp [hrelative])]
  cases place with
  | nil => rfl
  | cons name above =>
    have hname := h name List.mem_cons_self
    have hend : (toPath (name :: above)).getLast? ≠ some '/' := by
      rw [toPath_cons, Path.getLast?_append_slash _ hname.ne_nil]
      exact fun hslash => hname.slash_not_mem (List.mem_of_getLast? hslash)
    refine if_neg ?_
    rintro (hnil | hslash)
    · exact List.cons_ne_nil _ _ hnil
    · exact hend hslash

end Location

namespace Tree

variable {t t' : Tree} {here place : Location} {first second path : List Path.Step}
  {links m n : Nat}

/-- Trees in which the same stands everywhere. -/
theorem Frame.of_at?_eq (h : ∀ other, t'.at? other = t.at? other) : Frame [] t t' where
  kept hentry := by
    rw [h, hentry]
    rfl
  outside _ := .inl (h _)

/-! ## Putting ways together -/

/-- Ways are taken one after the other, and the links add up. -/
theorem Leads.append (h : t.Leads here first m place) {behind : Location}
    (h' : t.Leads place second n behind) : t.Leads here (first ++ second) (m + n) behind := by
  induction h with
  | done here => simpa using h'
  | stay hd _ ih => exact .stay hd (ih h')
  | slash hd _ ih => exact .slash hd (ih h')
  | up hd _ ih => exact .up hd (ih h')
  | enter hd hlength hentry hlink _ ih => exact .enter hd hlength hentry hlink (ih h')
  | link hd hlength htarget _ ih =>
    have hrest := ih h'
    rw [List.append_assoc] at hrest
    rw [Nat.add_right_comm]
    exact .link hd hlength htarget hrest

/-- A way goes on into what stands where it leads. -/
theorem Leads.enter_last {name : Text} {entry : Entry} (h : t.Leads here path links place)
    (hd : t.isDirectory place) (hlength : Text.byteLength name ≤ nameLimit)
    (hentry : t.at? (name :: place) = some entry) (hlink : ∀ target, entry ≠ .link target) :
    t.Leads here (path ++ [.enter name]) links (name :: place) := by
  have hname : t.Leads place [.enter name] 0 (name :: place) :=
    .enter hd hlength hentry hlink (.done _)
  exact h.append hname

/-- Nothing is taken before a way. -/
theorem Leads.behind_nothing (h : t.Leads here path links place) :
    ∃ mid m n, t.Leads here [] m mid ∧ t.Leads mid path n place ∧ links = m + n :=
  ⟨here, 0, links, .done here, h, (Nat.zero_add links).symm⟩

/-- A step that is taken in front of a way is taken in front of its first part. -/
theorem Leads.between_of_step {next : Location} {step : Path.Step} {rest : List Path.Step}
    (hparts : first ++ second = step :: rest) (h : t.Leads here (step :: rest) links place)
    (hstep : ∀ {path : List Path.Step} {m : Nat} {mid : Location},
      t.Leads next path m mid → t.Leads here (step :: path) m mid)
    (hbetween : ∀ {others : List Path.Step}, others ++ second = rest →
      ∃ mid m n, t.Leads next others m mid ∧ t.Leads mid second n place ∧ links = m + n) :
    ∃ mid m n, t.Leads here first m mid ∧ t.Leads mid second n place ∧ links = m + n := by
  cases first with
  | nil =>
    obtain rfl : second = step :: rest := hparts
    exact h.behind_nothing
  | cons other others =>
    obtain ⟨rfl, hothers⟩ := List.cons.inj hparts
    obtain ⟨mid, m, n, hfirst, hsecond, hlinks⟩ := hbetween hothers
    exact ⟨mid, m, n, hstep hfirst, hsecond, hlinks⟩

/-- **Taken apart** — a way through two lists of steps passes a location between them. -/
theorem leads_append_iff :
    t.Leads here (first ++ second) links place ↔
      ∃ mid m n, t.Leads here first m mid ∧ t.Leads mid second n place ∧ links = m + n := by
  constructor
  · intro h
    -- the induction is on the whole way; a link puts its own steps in front of both parts
    generalize hpath : first ++ second = path at h
    induction h generalizing first with
    | done here =>
      obtain ⟨rfl, rfl⟩ := List.append_eq_nil_iff.mp hpath
      exact (Leads.done here).behind_nothing
    | stay hd hrest ih => exact Leads.between_of_step hpath (.stay hd hrest) (.stay hd) ih
    | slash hd hrest ih => exact Leads.between_of_step hpath (.slash hd hrest) (.slash hd) ih
    | up hd hrest ih => exact Leads.between_of_step hpath (.up hd hrest) (.up hd) ih
    | enter hd hlength hentry hlink hrest ih =>
      exact Leads.between_of_step hpath (.enter hd hlength hentry hlink hrest)
        (.enter hd hlength hentry hlink) ih
    | @link here place name target rest links hd hlength htarget hrest ih =>
      cases first with
      | nil =>
        obtain rfl : second = _ := hpath
        exact (Leads.link hd hlength htarget hrest).behind_nothing
      | cons step others =>
        obtain ⟨rfl, hothers⟩ := List.cons.inj hpath
        have hparts : (Path.steps target ++ others) ++ second = Path.steps target ++ rest := by
          rw [← hothers]
          exact List.append_assoc _ _ _
        obtain ⟨mid, m, n, hfirst, hsecond, hlinks⟩ := ih hparts
        refine ⟨mid, m + 1, n, .link hd hlength htarget hfirst, hsecond, ?_⟩
        omega
  · rintro ⟨mid, m, n, hfirst, hsecond, rfl⟩
    exact hfirst.append hsecond

/-- A way goes through one number of links only. -/
theorem Leads.links_eq (h : t.Leads here path m place) (h' : t.Leads here path n place) :
    m = n := by
  induction h generalizing n with
  | done here =>
    cases h'
    rfl
  | stay _ _ ih =>
    cases h' with
    | stay _ hrest => exact ih hrest
  | slash _ _ ih =>
    cases h' with
    | slash _ hrest => exact ih hrest
  | up _ _ ih =>
    cases h' with
    | up _ hrest => exact ih hrest
  | enter _ _ hentry hlink _ ih =>
    cases h' with
    | enter _ _ _ _ hrest => exact ih hrest
    | link _ _ htarget _ =>
      -- what stands there is a link for the one way and none for the other
      rw [hentry] at htarget
      exact absurd (Option.some.inj htarget) (hlink _)
  | link _ _ htarget _ ih =>
    cases h' with
    | enter _ _ hentry hlink _ =>
      rw [htarget] at hentry
      exact absurd (Option.some.inj hentry).symm (hlink _)
    | link _ _ htarget' hrest =>
      rw [htarget] at htarget'
      obtain rfl := Entry.link.inj (Option.some.inj htarget')
      rw [ih hrest]

/-- Every step begins at a directory. -/
theorem Leads.isDirectory_of_ne_nil (h : t.Leads here path links place) (hpath : path ≠ []) :
    t.isDirectory here := by
  cases h with
  | done _ => exact absurd rfl hpath
  | stay hd _ => exact hd
  | slash hd _ => exact hd
  | up hd _ => exact hd
  | enter hd _ _ _ _ => exact hd
  | link hd _ _ _ => exact hd

/-- A way stays what it is as long as nothing is lost but the texts of files. -/
theorem Leads.frame {places : List Location} (h : t.Leads here path links place)
    (hframe : Frame places t t') : t'.Leads here path links place := by
  induction h with
  | done here => exact .done here
  | stay hd _ ih => exact .stay (hframe.isDirectory hd) ih
  | slash hd _ ih => exact .slash (hframe.isDirectory hd) ih
  | up hd _ ih => exact .up (hframe.isDirectory hd) ih
  | @enter here place name entry rest links hd hlength hentry hlink _ ih =>
    obtain ⟨entry', hentry', hsame⟩ := hframe.exists_entry hentry
    refine .enter (hframe.isDirectory hd) hlength hentry' (fun target e => ?_) ih
    -- an entry of the same kind as a link is that link
    subst e
    cases entry with
    | link other => exact hlink other rfl
    | directory => simp [Entry.emptied] at hsame
    | file text executable => simp [Entry.emptied] at hsame
    | device device => simp [Entry.emptied] at hsame
  | link hd hlength htarget _ ih =>
    exact .link (hframe.isDirectory hd) hlength (hframe.at?_of_not_file htarget (by simp)) ih

/-- A slash at the end of a path makes no difference where a directory is reached. -/
theorem leads_steps_iff {path : Text} (hd : t.isDirectory place) :
    t.Leads here (Path.steps path) links place ↔ t.Leads here (Path.moves path) links place := by
  rw [Path.steps_eq_moves_append]
  split
  · constructor
    · intro h
      obtain ⟨mid, m, n, hmid, hslash, rfl⟩ := leads_append_iff.mp h
      cases hslash with
      | slash _ hrest =>
        cases hrest
        exact hmid
    · intro h
      exact h.append (.slash hd (.done place))
  · rw [List.append_nil]

/-! ## What a path names -/

/-- **Names** — what the system takes a path for, from `base`: a text that is not empty, holds
no NUL and is not too long stands for where its steps lead through few enough links. -/
structure Names (t : Tree) (base : Location) (path : Text) (place : Location) : Prop where
  ne_nil : path ≠ []
  nul_not_mem : '\x00' ∉ path
  byteLength_le : Text.byteLength path ≤ pathLimit
  leads : ∃ links ≤ linkLimit, t.Leads (origin base path) (Path.steps path) links place

section Names

variable {base : Location} {path : Text} {entry : Entry}

theorem locate_eq_ok_iff (hnul : '\x00' ∉ path) :
    t.locate base path = .ok place ↔ t.Names base path place := by
  unfold locate
  split
  · rename_i hnil
    exact ⟨fun h => absurd h (by simp), fun h => absurd hnil h.ne_nil⟩
  · rename_i hne
    split
    · rename_i hlong
      refine ⟨fun h => absurd h (by simp), fun h => ?_⟩
      exact absurd h.byteLength_le (Nat.not_le_of_lt hlong)
    · rename_i hshort
      rw [follow_eq_ok_iff]
      exact ⟨fun h => ⟨hne, hnul, Nat.le_of_not_lt hshort, h⟩, Names.leads⟩

theorem lookUp?_eq_some_iff :
    t.lookUp? base path = some entry ↔ ∃ place, t.Names base path place ∧ t.at? place = some entry := by
  unfold lookUp?
  split
  · rename_i hnul
    refine ⟨fun h => absurd h (by simp), ?_⟩
    rintro ⟨place, hnames, -⟩
    exact absurd (List.contains_iff_mem.mp hnul) hnames.nul_not_mem
  · rename_i hnul
    rw [List.contains_iff_mem] at hnul
    split
    · rename_i place hplace
      have hnames := (locate_eq_ok_iff hnul).mp hplace
      refine ⟨fun h => ⟨place, hnames, h⟩, ?_⟩
      rintro ⟨other, hother, hentry⟩
      rw [← locate_eq_ok_iff hnul, hplace] at hother
      exact Except.ok.inj hother ▸ hentry
    · rename_i cause hplace
      refine ⟨fun h => absurd h (by simp), ?_⟩
      rintro ⟨place, hnames, -⟩
      rw [← locate_eq_ok_iff hnul, hplace] at hnames
      exact absurd hnames (by simp)

/-- The existence test asks whether the path names a directory. -/
theorem holdsDirectory_iff :
    t.holdsDirectory base path = true ↔ ∃ place, t.Names base path place ∧ t.isDirectory place := by
  simp only [holdsDirectory, isDirectory, decide_eq_true_eq]
  exact lookUp?_eq_some_iff

theorem Names.frame {places : List Location} (h : t.Names base path place)
    (hframe : Frame places t t') : t'.Names base path place where
  ne_nil := h.ne_nil
  nul_not_mem := h.nul_not_mem
  byteLength_le := h.byteLength_le
  leads := by
    obtain ⟨links, hle, hleads⟩ := h.leads
    exact ⟨links, hle, hleads.frame hframe⟩

end Names

/-! ## Ways to directories in sound trees -/

theorem IsSound.isProper (h : t.IsSound) (hplace : t.isDirectory place) :
    ∀ name ∈ place, IsProper name := by
  intro name hname
  have hn := h.isName (isSome_of_isDirectory hplace) hname
  exact ⟨hn.ne_nil, hn.ne_stay, hn.ne_up, hn.slash_not_mem⟩

/-- The steps to a directory from the root lead there, and meet no link. -/
theorem leads_ways (h : t.IsSound) (hplace : t.isDirectory place) :
    t.Leads [] place.ways 0 place := by
  induction place with
  | nil => exact .done []
  | cons name above ih =>
    have habove := h.isDirectory_above (isSome_of_isDirectory hplace)
    have hname := h.isName (isSome_of_isDirectory hplace) List.mem_cons_self
    have hentry : t.at? (name :: above) = some .directory := by
      simpa [isDirectory] using hplace
    rw [Location.ways_cons]
    exact (ih habove).enter_last habove hname.byteLength_le hentry (by simp)

/-- **Back again** — the path of a directory leads to it, and meets no link. -/
theorem leads_toPath (h : t.IsSound) (hplace : t.isDirectory place) :
    t.Leads [] (Path.steps place.toPath) 0 place := by
  rw [leads_steps_iff hplace, Location.moves_toPath (h.isProper hplace)]
  exact leads_ways h hplace

/-- A way that begins with the steps to a directory goes on from there. -/
theorem leads_ways_append_iff (h : t.IsSound) (hplace : t.isDirectory place) {behind : Location} :
    t.Leads [] (place.ways ++ path) links behind ↔ t.Leads place path links behind := by
  have hways := leads_ways h hplace
  rw [leads_append_iff]
  constructor
  · rintro ⟨mid, m, n, hfirst, hrest, rfl⟩
    obtain rfl := hfirst.functional hways
    obtain rfl := hfirst.links_eq hways
    rwa [Nat.zero_add]
  · intro hrest
    exact ⟨place, 0, links, hways, hrest, (Nat.zero_add links).symm⟩

/-- What is taken from the path of a directory begins where the directory is. -/
theorem leads_join_toPath_iff (h : t.IsSound) (hplace : t.isDirectory place) {relative : Text}
    (hne : relative ≠ []) (hrelative : Path.isAbsolute relative = false) {behind : Location} :
    t.Leads [] (Path.steps (Path.join place.toPath relative)) links behind ↔
      t.Leads place (Path.steps relative) links behind := by
  have hproper := h.isProper hplace
  rw [Location.join_toPath hproper hrelative, Path.steps_append_slash _ hne,
    Location.moves_front hproper]
  exact leads_ways_append_iff h hplace

/-- The path of a directory in a sound tree holds no NUL. -/
theorem IsSound.nul_not_mem_toPath (h : t.IsSound) (hplace : t.isDirectory place) :
    '\x00' ∉ place.toPath := by
  apply Location.IsPlain.nul_not_mem_toPath
  intro name hname
  exact (h.isName (isSome_of_isDirectory hplace) hname).nul_not_mem

/-- The path of a directory names it, from everywhere, unless it is too long. -/
theorem names_toPath (h : t.IsSound) (hplace : t.isDirectory place)
    (hlength : Text.byteLength place.toPath ≤ pathLimit) (base : Location) :
    t.Names base place.toPath place where
  ne_nil := List.cons_ne_nil _ _
  nul_not_mem := h.nul_not_mem_toPath hplace
  byteLength_le := hlength
  leads := by
    rw [origin_of_isAbsolute place.isAbsolute_toPath]
    exact ⟨0, Nat.zero_le linkLimit, leads_toPath h hplace⟩

/-- Above a directory of a sound tree there are directories, and its names are proper. -/
theorem IsSound.rooted (h : t.IsSound) (hplace : t.isDirectory place) : t.Rooted place where
  isProper := h.isProper hplace
  isDirectory_above := by
    intro above habove
    induction place with
    | nil =>
      rw [List.suffix_nil.mp habove]
      exact hplace
    | cons name outer ih =>
      have houter := h.isDirectory_above (isSome_of_isDirectory hplace)
      cases outer with
      | nil =>
        rw [List.suffix_nil.mp habove]
        exact houter
      | cons other rest =>
        rcases List.suffix_cons_iff.mp habove with rfl | hrest
        · exact houter
        · exact ih houter hrest

end Tree
end LineShell
