/-
# LineShell.Proofs.Path.Clean -- clean paths and the texts that they are written as

A clean path is made from a text and is written as a text again. The two ways fit together:
what a clean path is written as is read as that clean path (`IsClean.ofPath_toPath`), and
joining two texts and cleaning the result is the same as joining their clean paths
(`ofPath_join`). Texts can therefore be joined and cleaned in any order.

A text is cut at its slashes into the names of its clean path, behind one empty piece for
each slash of the root (`IsClean.pieces_toPath`). All that can be said about a clean path as
it is written follows from that.
-/

import LineShell.Proofs.Tree.Absolute
import LineShell.Proofs.Tree.Ways

namespace LineShell

/-- The path as it is written when it is clean. -/
def Path.clean (path : Text) : Text := (CleanPath.ofPath path).toPath

namespace Path

/-- The slashes that a path begins with. -/
def frontSlashes (path : Text) : Text := path.takeWhile (· = '/')

theorem frontSlashes_of_not_isAbsolute {path : Text} (h : isAbsolute path = false) :
    frontSlashes path = [] := by
  cases path with
  | nil => rfl
  | cons c rest =>
    have hc : c ≠ '/' := by simpa [isAbsolute] using h
    simp [frontSlashes, hc]

/-- What stands behind a path adds to the slashes at its front only if the path holds nothing
else. -/
theorem frontSlashes_append {path behind : Text}
    (h : path.all (· = '/') = true → isAbsolute behind = false) :
    frontSlashes (path ++ behind) = frontSlashes path := by
  induction path with
  | nil => exact frontSlashes_of_not_isAbsolute (h rfl)
  | cons c rest ih =>
    by_cases hc : c = '/'
    · subst hc
      have hrest := ih fun hall => h (by simpa using hall)
      simpa [frontSlashes] using hrest
    · simp [frontSlashes, hc]

end Path

namespace CleanPath

/-! ## Roots -/

/-- The root of a path depends on the number of slashes at its front only. -/
theorem rootOf_eq_of_frontSlashes {path other : Text}
    (h : Path.frontSlashes path = Path.frontSlashes other) : rootOf path = rootOf other := by
  unfold Path.frontSlashes at h
  rw [rootOf, rootOf, h]

theorem rootOf_eq_nil_iff {path : Text} : rootOf path = [] ↔ Path.isAbsolute path = false := by
  constructor
  · intro h
    by_contra habsolute
    have hroot := isAbsolute_rootOf (Bool.not_eq_false _ ▸ habsolute)
    rw [h] at hroot
    exact absurd hroot (by decide)
  · intro h
    cases path with
    | nil => rfl
    | cons c rest =>
      have hc : c ≠ '/' := by simpa [Path.isAbsolute] using h
      simp [rootOf, hc]

theorem rootOf_eq_double_iff {path : Text} :
    rootOf path = ['/', '/'] ↔ Path.frontSlashes path = ['/', '/'] := by
  constructor
  · intro h
    have hlength : (Path.frontSlashes path).length = 2 := by
      unfold rootOf at h
      split at h
      · exact absurd h (by simp)
      · assumption
      · exact absurd h (by simp)
    have hslashes : ∀ c ∈ Path.frontSlashes path, c = '/' := by
      intro c hc
      have hslash := List.mem_takeWhile_imp hc
      exact of_decide_eq_true hslash
    exact List.eq_replicate_iff.mpr ⟨hlength, hslashes⟩
  · intro h
    unfold Path.frontSlashes at h
    rw [rootOf, h]
    rfl

/-- The names of two paths with a slash between them are those of the one and the other. -/
theorem names_append_slash (first second : Text) :
    (ofPath (first ++ '/' :: second)).names = (ofPath first).names ++ (ofPath second).names := by
  show List.filter _ (Text.pieces '/' (first ++ '/' :: second)) = _
  rw [Text.pieces_append_sep, List.filter_append]
  rfl

/-- **Clean** — the root is one that paths have, and the names are neither empty nor `.` and
hold no slashes. -/
structure IsClean (path : CleanPath) : Prop where
  root_cases : path.root = [] ∨ path.root = ['/'] ∨ path.root = ['/', '/']
  ne_nil : ∀ name ∈ path.names, name ≠ []
  ne_stay : ∀ name ∈ path.names, name ≠ ['.']
  slash_not_mem : ∀ name ∈ path.names, '/' ∉ name

theorem isClean_ofPath (path : Text) : (ofPath path).IsClean where
  root_cases := by
    show rootOf path = [] ∨ rootOf path = ['/'] ∨ rootOf path = ['/', '/']
    unfold rootOf
    split <;> simp
  ne_nil := by
    intro name hname
    exact (of_decide_eq_true (List.mem_filter.mp hname).2).1
  ne_stay := by
    intro name hname
    exact (of_decide_eq_true (List.mem_filter.mp hname).2).2
  slash_not_mem := by
    intro name hname
    exact Text.not_mem_of_mem_pieces (List.mem_filter.mp hname).1

namespace IsClean

variable {path directory : CleanPath}

theorem join (hdirectory : directory.IsClean) (h : path.IsClean) :
    (directory.join path).IsClean := by
  unfold CleanPath.join
  split
  · have hnames {p : Text → Prop} (hfirst : ∀ name ∈ directory.names, p name)
        (hsecond : ∀ name ∈ path.names, p name) :
        ∀ name ∈ directory.names ++ path.names, p name := by
      intro name hname
      exact (List.mem_append.mp hname).elim (hfirst name) (hsecond name)
    exact ⟨hdirectory.root_cases, hnames hdirectory.ne_nil h.ne_nil,
      hnames hdirectory.ne_stay h.ne_stay, hnames hdirectory.slash_not_mem h.slash_not_mem⟩
  · exact h

/-! ## What is written and what is read -/

theorem filter_names (h : path.IsClean) :
    path.names.filter (fun name => name ≠ [] ∧ name ≠ ['.']) = path.names := by
  rw [List.filter_eq_self]
  intro name hname
  exact decide_eq_true ⟨h.ne_nil name hname, h.ne_stay name hname⟩

/-- What stands behind the root does not begin with a slash. -/
theorem isAbsolute_intercalate (h : path.IsClean) :
    Path.isAbsolute (['/'].intercalate path.names) = false := by
  obtain ⟨root, names⟩ := path
  cases names with
  | nil => rfl
  | cons name others =>
    obtain ⟨c, rest, rfl⟩ := List.exists_cons_of_ne_nil (h.ne_nil name List.mem_cons_self)
    have hc : c ≠ '/' := by
      rintro rfl
      exact h.slash_not_mem _ List.mem_cons_self List.mem_cons_self
    cases others <;> simpa [Path.isAbsolute, List.intercalate_cons_cons] using hc

/-- The slashes at the front are those of the root. -/
theorem frontSlashes_toPath (h : path.IsClean) : Path.frontSlashes path.toPath = path.root := by
  by_cases hnil : path.root = [] ∧ path.names = []
  · rw [toPath, if_pos hnil, hnil.1]
    rfl
  · have hroot : ∀ c ∈ path.root, decide (c = '/') = true := by
      intro c hc
      rcases h.root_cases with hr | hr | hr <;> rw [hr] at hc <;> simp_all
    have hnames := Path.frontSlashes_of_not_isAbsolute h.isAbsolute_intercalate
    unfold Path.frontSlashes at hnames ⊢
    rw [toPath, if_neg hnil, List.takeWhile_append_of_pos hroot, hnames, List.append_nil]

theorem rootOf_toPath (h : path.IsClean) : rootOf path.toPath = path.root := by
  have hfront := h.frontSlashes_toPath
  unfold Path.frontSlashes at hfront
  unfold rootOf
  rw [hfront]
  rcases h.root_cases with hr | hr | hr <;> rw [hr] <;> rfl

/-- The names are found again: the slashes of the root only make empty pieces. -/
theorem names_ofPath_toPath (h : path.IsClean) : (ofPath path.toPath).names = path.names := by
  have hnames : (ofPath (['/'].intercalate path.names)).names = path.names := by
    show (Text.pieces '/' (['/'].intercalate path.names)).filter _ = path.names
    by_cases hne : path.names = []
    · rw [hne]
      rfl
    · rw [Text.pieces_intercalate hne h.slash_not_mem]
      exact h.filter_names
  by_cases hnil : path.root = [] ∧ path.names = []
  · rw [toPath, if_pos hnil, hnil.2]
    rfl
  · rw [toPath, if_neg hnil]
    rcases h.root_cases with hr | hr | hr <;> rw [hr]
    · exact hnames
    · exact (names_append_slash [] _).trans hnames
    · exact (names_append_slash ['/'] _).trans hnames

/-- **Read back** — what a clean path is written as is read as that path. -/
theorem ofPath_toPath (h : path.IsClean) : ofPath path.toPath = path := by
  obtain ⟨root, names⟩ := path
  show CleanPath.mk (rootOf _) (ofPath _).names = _
  rw [h.rootOf_toPath, h.names_ofPath_toPath]

theorem isAbsolute_toPath_eq_false (h : path.IsClean) (hroot : path.root = []) :
    Path.isAbsolute path.toPath = false := by
  by_cases hnames : path.names = []
  · rw [CleanPath.toPath, if_pos ⟨hroot, hnames⟩]
    rfl
  · rw [CleanPath.toPath, if_neg fun hnil => hnames hnil.2, hroot]
    exact h.isAbsolute_intercalate

theorem isAbsolute_root (h : path.IsClean) (hroot : path.root ≠ []) :
    Path.isAbsolute path.root = true := by
  rcases h.root_cases with hr | hr | hr
  · exact absurd hr hroot
  · rw [hr]
    rfl
  · rw [hr]
    rfl

/-- Nothing clean is written as the empty text. -/
theorem toPath_ne_nil (h : path.IsClean) : path.toPath ≠ [] := by
  intro hnil
  have hpath : path = ⟨[], []⟩ := by
    rw [← h.ofPath_toPath, hnil]
    rfl
  rw [hpath] at hnil
  exact absurd hnil (by decide)

end IsClean

/-! ## Joining -/

/-- **Joined** — joining two texts and cleaning the result is joining their clean paths. -/
theorem ofPath_join (directory path : Text) :
    ofPath (Path.join directory path) = (ofPath directory).join (ofPath path) := by
  by_cases habsolute : Path.isAbsolute path = true
  · have hroot : (ofPath path).root ≠ [] := Path.ne_nil_of_isAbsolute (isAbsolute_rootOf habsolute)
    rw [Path.join_of_isAbsolute habsolute, join_of_root_ne_nil hroot]
  · have hrelative : Path.isAbsolute path = false := by simpa using habsolute
    have hroot : (ofPath path).root = [] := rootOf_eq_nil_iff.mpr hrelative
    have hjoin : (ofPath directory).join (ofPath path) =
        ⟨rootOf directory, (ofPath directory).names ++ (ofPath path).names⟩ := if_pos hroot
    suffices h : Path.frontSlashes (Path.join directory path) = Path.frontSlashes directory ∧
        (ofPath (Path.join directory path)).names =
          (ofPath directory).names ++ (ofPath path).names by
      rw [hjoin, ← rootOf_eq_of_frontSlashes h.1, ← h.2]
      rfl
    unfold Path.join
    rw [if_neg habsolute]
    split
    · rename_i hopen
      refine ⟨Path.frontSlashes_append fun _ => hrelative, ?_⟩
      rcases hopen with rfl | hslash
      · rfl
      · -- the slash at the end separates the two, and makes an empty name of its own
        obtain ⟨above, rfl⟩ := List.getLast?_eq_some_iff.mp hslash
        have hempty : (ofPath []).names = [] := rfl
        rw [List.append_assoc, List.singleton_append, names_append_slash, names_append_slash,
          hempty, List.append_nil]
    · rename_i hclosed
      rw [not_or] at hclosed
      refine ⟨Path.frontSlashes_append fun hslashes => ?_, names_append_slash directory path⟩
      -- a directory that is all slashes would end in one
      obtain ⟨above, last, rfl⟩ := (List.eq_nil_or_concat directory).resolve_left hclosed.1
      have hlast : last = '/' := by simpa using List.all_eq_true.mp hslashes last (by simp)
      exact absurd (by simp [hlast]) hclosed.2

end CleanPath

/-- A clean path taken from a directory can be taken from the directory as it is written. -/
theorem Path.toPath_join {path : CleanPath} (h : path.IsClean) (directory : Text) :
    ((CleanPath.ofPath directory).join path).toPath = clean (join directory path.toPath) := by
  rw [clean, CleanPath.ofPath_join, h.ofPath_toPath]

/-! ## Absolute paths of entries -/

/-- **Settled** — the path is absolute, and what stands behind its one or two slashes are names
that are neither empty nor `.`, so that it does not end in a slash and has a directory part. -/
structure Path.IsSettled (path : Text) : Prop where
  isAbsolute : isAbsolute path = true
  pieces : ∃ names, names ≠ [] ∧ (∀ name ∈ names, name ≠ [] ∧ name ≠ ['.']) ∧
    (Text.pieces '/' path = [] :: names ∨ Text.pieces '/' path = [] :: [] :: names)
  getLast?_ne : path.getLast? ≠ some '/'
  isAbsolute_directoryPart : Path.isAbsolute (directoryPart path) = true

namespace CleanPath.IsClean

variable {path : CleanPath}

/-- Behind an empty piece for each slash of the root stand the names. -/
theorem pieces_toPath (h : path.IsClean) (hroot : path.root ≠ []) (hnames : path.names ≠ []) :
    Text.pieces '/' path.toPath = [] :: path.names ∨
      Text.pieces '/' path.toPath = [] :: [] :: path.names := by
  have hwritten : path.toPath = path.root ++ ['/'].intercalate path.names :=
    if_neg fun hnil => hroot hnil.1
  have hpieces := Text.pieces_intercalate hnames h.slash_not_mem
  rcases h.root_cases with hr | hr | hr
  · exact absurd hr hroot
  · left
    rw [hwritten, hr, List.singleton_append, Text.pieces_cons_sep, hpieces]
  · right
    rw [hwritten, hr, List.cons_append, List.singleton_append, Text.pieces_cons_sep,
      Text.pieces_cons_sep, hpieces]

theorem isSettled_toPath (h : path.IsClean) (hroot : path.root ≠ []) (hnames : path.names ≠ []) :
    Path.IsSettled path.toPath := by
  have habsolute := isAbsolute_toPath (h.isAbsolute_root hroot)
  have hpieces := h.pieces_toPath hroot hnames
  refine ⟨habsolute, ⟨path.names, hnames, ?_, hpieces⟩, ?_, Path.isAbsolute_directoryPart habsolute⟩
  · intro name hname
    exact ⟨h.ne_nil name hname, h.ne_stay name hname⟩
  · -- a slash at the end would make an empty name
    intro hslash
    obtain ⟨above, habove⟩ := List.getLast?_eq_some_iff.mp hslash
    have hlast : (Text.pieces '/' path.toPath).getLast? = some [] := by
      rw [habove, Text.pieces_append_sep]
      simp [Text.pieces]
    have hempty : path.names.getLast? = some [] := by
      obtain ⟨name, others, hcons⟩ := List.exists_cons_of_ne_nil hnames
      rcases hpieces with hp | hp <;> rw [hp, hcons] at hlast <;> rw [hcons] <;> exact hlast
    exact h.ne_nil [] (List.mem_of_getLast? hempty) rfl

end CleanPath.IsClean

namespace Location

variable {base : Location} (h : ∀ name ∈ base, IsProper name)
include h

theorem isClean_reverse : CleanPath.IsClean ⟨['/'], base.reverse⟩ where
  root_cases := .inr (.inl rfl)
  ne_nil name hname := (h name (List.mem_reverse.mp hname)).ne_nil
  ne_stay name hname := (h name (List.mem_reverse.mp hname)).ne_stay
  slash_not_mem name hname := (h name (List.mem_reverse.mp hname)).slash_not_mem

/-- The path of a location is clean, and its names are those of the location. -/
theorem ofPath_toPath : CleanPath.ofPath base.toPath = ⟨['/'], base.reverse⟩ := by
  have hwritten : base.toPath = CleanPath.toPath ⟨['/'], base.reverse⟩ :=
    (if_neg fun hnil => absurd hnil.1 (List.cons_ne_nil _ _)).symm
  rw [hwritten]
  exact (isClean_reverse h).ofPath_toPath

/-- A clean path that is taken from a location is written behind the path of the location. -/
theorem toPath_join {path : CleanPath} (hclean : path.IsClean) (hroot : path.root = [])
    (hnames : path.names ≠ []) :
    ((CleanPath.ofPath base.toPath).join path).toPath = Path.join base.toPath path.toPath := by
  have hpath : path.toPath = ['/'].intercalate path.names := by
    rw [CleanPath.toPath, if_neg fun hnil => hnames hnil.2, hroot, List.nil_append]
  have hrelative := hclean.isAbsolute_toPath_eq_false hroot
  have hjoined : ((CleanPath.ofPath base.toPath).join path).toPath =
      '/' :: ['/'].intercalate (base.reverse ++ path.names) := by
    rw [ofPath_toPath h, CleanPath.join, if_pos hroot]
    rfl
  rw [hjoined, join_toPath h hrelative, hpath]
  cases base with
  | nil => rfl
  | cons name above =>
    have hreverse : (name :: above).reverse ≠ [] := by simp
    rw [Text.intercalate_append hreverse hnames]
    rfl

end Location

end LineShell
