/-
# LineShell.Proofs.Search.Settled -- what is found is found again

Looking up an absolute command does not depend on the search path: each entry has the command
itself as its candidate, and the first one decides (`program_of_isAbsolute`).

A program is told by a settled path, and that path can stand for the command: the search for
it, on any search path that has an entry and from anywhere, finds it again. The one exception
is the bound on the length of paths. A program that is found by a relative path may have an
absolute path that is too long, and the search for that one fails (`program_settled`).
-/

import LineShell.Proofs.Search.FirstMatch

namespace LineShell

variable {t : Tree} {base : Location}

/-! ## Programs are not directories -/

namespace Tree

/-- A path without names asks for a directory. -/
theorem NamesProgram.names_ne_nil {path : CleanPath} (hclean : path.IsClean)
    (h : t.NamesProgram base path.toPath) : path.names ≠ [] := by
  intro hnil
  obtain ⟨place, text, hnames, hentry⟩ := h
  obtain ⟨links, -, hleads⟩ := hnames.leads
  have hsteps : Path.steps path.toPath = [.stay] ∨ Path.steps path.toPath = [.slash] := by
    obtain ⟨root, names⟩ := path
    obtain rfl : names = [] := hnil
    rcases hclean.root_cases with hroot | hroot | hroot <;> obtain rfl : root = _ := hroot
    · exact .inl (by decide)
    · exact .inr (by decide)
    · exact .inr (by decide)
  have hd : t.isDirectory place := by
    rcases hsteps with hsteps | hsteps <;> rw [hsteps] at hleads
    · cases hleads with
      | stay hd hrest =>
        cases hrest
        exact hd
    · cases hleads with
      | slash hd hrest =>
        cases hrest
        exact hd
  rw [isDirectory, hentry] at hd
  exact absurd hd (by simp)

/-- A program that is named by an absolute path is named by it from everywhere. -/
theorem NamesProgram.elsewhere {path : Text} (h : t.NamesProgram base path)
    (habsolute : Path.isAbsolute path = true) (other : Location) : t.NamesProgram other path := by
  obtain ⟨place, text, hnames, hentry⟩ := h
  have hnul := hnames.nul_not_mem
  refine ⟨place, text, ?_, hentry⟩
  rw [← locate_eq_ok_iff hnul, ← locate_eq_of_isAbsolute habsolute base other]
  exact (locate_eq_ok_iff hnul).mpr hnames

/-- A relative path begins at a directory, and so does the absolute path. -/
theorem NamesProgram.join {path : Text} (hsound : t.IsSound)
    (hrelative : Path.isAbsolute path = false) (h : t.NamesProgram base path) :
    t.isDirectory base ∧ '\x00' ∉ Path.join base.toPath path ∧
      (Text.byteLength (Path.join base.toPath path) ≤ pathLimit →
        t.NamesProgram base (Path.join base.toPath path)) := by
  obtain ⟨place, text, hnames, hentry⟩ := h
  have horigin : origin base path = base := by
    rw [origin, if_neg (by simp [hrelative])]
  obtain ⟨links, hle, hleads⟩ := hnames.leads
  rw [horigin] at hleads
  have hbase : t.isDirectory base := hleads.isDirectory_of_ne_nil (Path.steps_ne_nil hnames.ne_nil)
  have hnul := Path.nul_not_mem_join (hsound.nul_not_mem_toPath hbase) hnames.nul_not_mem
  have habsolute := Path.isAbsolute_join base.isAbsolute_toPath path
  refine ⟨hbase, hnul, fun hlength => ⟨place, text, ?_, hentry⟩⟩
  refine ⟨Path.ne_nil_of_isAbsolute habsolute, hnul, hlength, links, hle, ?_⟩
  rw [origin_of_isAbsolute habsolute]
  exact (leads_join_toPath_iff hsound hbase hnames.ne_nil hrelative).mpr hleads

/-- **Replaces** — an absolute path names the program that a path names from where the process
stands, unless it is too long, which only the absolute form of a relative path can be. -/
structure Replaces (t : Tree) (base : Location) (absolute path : CleanPath) : Prop where
  isClean : absolute.IsClean
  root_ne_nil : absolute.root ≠ []
  names_ne_nil : absolute.names ≠ []
  root_eq_iff : absolute.root = ['/', '/'] ↔ path.root = ['/', '/']
  nul_not_mem : '\x00' ∉ absolute.toPath
  namesProgram : Text.byteLength absolute.toPath ≤ pathLimit → t.NamesProgram base absolute.toPath
  root_eq_nil : pathLimit < Text.byteLength absolute.toPath → path.root = []

/-- The absolute form of a path that names a program replaces it. -/
theorem NamesProgram.replaces {path : CleanPath} (hsound : t.IsSound) (hclean : path.IsClean)
    (h : t.NamesProgram base path.toPath) :
    t.Replaces base ((CleanPath.ofPath base.toPath).join path) path := by
  have hnames := h.names_ne_nil hclean
  by_cases hroot : path.root = []
  · obtain ⟨hbase, hnul, hjoined⟩ := h.join hsound (hclean.isAbsolute_toPath_eq_false hroot)
    have hproper := hsound.isProper hbase
    have hplace : (CleanPath.ofPath base.toPath).join path =
        ⟨['/'], base.reverse ++ path.names⟩ := by
      rw [Location.ofPath_toPath hproper, CleanPath.join, if_pos hroot]
    rw [← Location.toPath_join hproper hclean hroot hnames, hplace] at hnul hjoined
    rw [hplace]
    refine ⟨?_, List.cons_ne_nil _ _, ?_, ?_, hnul, hjoined, fun _ => hroot⟩
    · rw [← hplace]
      exact (CleanPath.isClean_ofPath _).join hclean
    · simp [hnames]
    · simp [hroot]
  · -- an absolute path is its own absolute form
    rw [CleanPath.join_of_root_ne_nil hroot]
    obtain ⟨place, text, hnamed, hentry⟩ := h
    refine ⟨hclean, hroot, hnames, Iff.rfl, hnamed.nul_not_mem,
      fun _ => ⟨place, text, hnamed, hentry⟩, ?_⟩
    intro hlong
    exact absurd hnamed.byteLength_le (Nat.not_le_of_lt hlong)

end Tree

namespace Search

variable {path other : Option Text} {command : Text}

/-! ## Absolute commands -/

/-- Where all candidates are one and the same, that one decides. -/
theorem firstProgram_of_forall_eq {candidates : List CleanPath} {wanted : CleanPath}
    (hne : candidates ≠ []) (h : ∀ candidate ∈ candidates, candidate = wanted) :
    firstProgram t base candidates =
      (probe t base wanted).map fun isProgram => if isProgram then some wanted else none := by
  induction candidates with
  | nil => exact absurd rfl hne
  | cons candidate rest ih =>
    obtain rfl := h candidate List.mem_cons_self
    unfold firstProgram
    rcases hprobe : probe t base candidate with failure | _ | _
    · rfl
    · by_cases hrest : rest = []
      · rw [hrest]
        rfl
      · show firstProgram t base rest = _
        rw [ih hrest fun other hother => h other (List.mem_cons_of_mem _ hother), hprobe]
    · rfl

theorem candidate_of_isAbsolute (h : Path.isAbsolute command = true) (entry : Text) :
    candidate command entry = CleanPath.ofPath command :=
  CleanPath.join_of_root_ne_nil (Path.ne_nil_of_isAbsolute (CleanPath.isAbsolute_rootOf h)) _

theorem allBlank_of_isAbsolute (h : Path.isAbsolute command = true) :
    Text.allBlank command = false := by
  obtain ⟨rest, rfl⟩ := Path.isAbsolute_iff.mp h
  have hslash : Text.isBlank '/' = false := by decide
  simp [Text.allBlank, hslash]

/-- **An absolute command** is itself the candidate of each entry, and the first one decides. -/
theorem program_of_isAbsolute (h : Path.isAbsolute command = true)
    (hentries : directories path ≠ []) :
    program t base path command =
      (probe t base (CleanPath.ofPath command)).map fun isProgram =>
        if isProgram then some (Path.clean command) else none := by
  have hcandidates : ∀ place ∈ (directories path).map (candidate command),
      place = CleanPath.ofPath command := by
    intro place hplace
    obtain ⟨entry, -, rfl⟩ := List.mem_map.mp hplace
    exact candidate_of_isAbsolute h entry
  have hroot : (CleanPath.ofPath command).root ≠ [] :=
    Path.ne_nil_of_isAbsolute (CleanPath.isAbsolute_rootOf h)
  rw [program_of_not_allBlank (allBlank_of_isAbsolute h),
    firstProgram_of_forall_eq (by simpa using hentries) hcandidates]
  rcases probe t base (CleanPath.ofPath command) with failure | _ | _
  · rfl
  · rfl
  · show Except.ok (some ((CleanPath.ofPath base.toPath).join (CleanPath.ofPath command)).toPath) = _
    rw [CleanPath.join_of_root_ne_nil hroot]
    rfl

theorem program_of_no_entries (h : directories path = []) :
    program t base path command = .ok none := by
  unfold program
  rw [h]
  split <;> rfl

/-! ## What is found -/

/-- A search that finds a program ends at an entry whose candidate names it. -/
theorem exists_entry_of_program {found : Text}
    (h : program t base path command = .ok (some found)) :
    ∃ entry ∈ directories path, t.NamesProgram base (candidate command entry).toPath ∧
      found = ((CleanPath.ofPath base.toPath).join (candidate command entry)).toPath := by
  obtain ⟨result, hresult⟩ := exists_comesTo t base path command
  have hfound := program_of_comesTo hresult
  rw [h] at hfound
  cases hresult with
  | blank _ => exact absurd hfound (by simp)
  | failed _ _ _ _ => exact absurd hfound (by simp)
  | nothing _ _ _ => exact absurd hfound (by simp)
  | @found before behind entry _ hentries _ hprogram =>
    rw [← toPath_candidate] at hprogram
    refine ⟨entry, ?_, hprogram, ?_⟩
    · rw [hasEntries_iff.mp hentries]
      exact List.mem_append_right before List.mem_cons_self
    · rw [Path.toPath_join (isClean_candidate command entry), toPath_candidate]
      exact Option.some.inj (Except.ok.inj hfound)

/-- **Settles** — what is found stands for a command of its own. -/
structure Settles (t : Tree) (path : Option Text) (command found : Text) : Prop where
  isSettled : Path.IsSettled found
  /-- It has two slashes at its front if the entry and the command have, and it is too long only
  if they make up a relative path. -/
  entry : ∃ entry ∈ directories path,
    (Path.frontSlashes found = ['/', '/'] ↔
      Path.frontSlashes (Path.join entry command) = ['/', '/']) ∧
    (pathLimit < Text.byteLength found → Path.isAbsolute (Path.join entry command) = false)
  /-- It is found again on every search path that has an entry, unless it is too long. -/
  again : ∀ (other : Option Text) (elsewhere : Location), directories other ≠ [] →
    program t elsewhere other found =
      if Text.byteLength found ≤ pathLimit then .ok (some found)
      else .error ⟨.nameTooLong, some found⟩

/-- A path that replaces another is found again. -/
theorem program_of_replaces {absolute wanted : CleanPath} (h : t.Replaces base absolute wanted)
    (hentries : directories other ≠ []) (elsewhere : Location) :
    program t elsewhere other absolute.toPath =
      if Text.byteLength absolute.toPath ≤ pathLimit then .ok (some absolute.toPath)
      else .error ⟨.nameTooLong, some absolute.toPath⟩ := by
  have habsolute := CleanPath.isAbsolute_toPath (h.isClean.isAbsolute_root h.root_ne_nil)
  rw [program_of_isAbsolute habsolute hentries, Path.clean, h.isClean.ofPath_toPath]
  split
  · rename_i hlength
    rw [probe_of_namesProgram ((h.namesProgram hlength).elsewhere habsolute elsewhere)]
    rfl
  · rename_i hlength
    have hlong : t.IsOverlong elsewhere absolute.toPath := .inl (Nat.lt_of_not_le hlength)
    rw [probe_of_cannotBeAskedFor h.isClean ⟨h.nul_not_mem, hlong⟩]
    rfl

/-- **Found again** — what is found settles. -/
theorem settles_of_program (hsound : t.IsSound) {found : Text}
    (h : program t base path command = .ok (some found)) : Settles t path command found := by
  obtain ⟨entry, hentry, hprogram, rfl⟩ := exists_entry_of_program h
  have hreplaces := hprogram.replaces hsound (isClean_candidate command entry)
  have hroot : (candidate command entry).root = CleanPath.rootOf (Path.join entry command) :=
    congrArg CleanPath.root (CleanPath.ofPath_join entry command).symm
  refine ⟨hreplaces.isClean.isSettled_toPath hreplaces.root_ne_nil hreplaces.names_ne_nil,
    ⟨entry, hentry, ?_, ?_⟩, ?_⟩
  · rw [hreplaces.isClean.frontSlashes_toPath, hreplaces.root_eq_iff, hroot]
    exact CleanPath.rootOf_eq_double_iff
  · intro hlong
    apply CleanPath.rootOf_eq_nil_iff.mp
    rw [← hroot]
    exact hreplaces.root_eq_nil hlong
  · intro other elsewhere hother
    exact program_of_replaces hreplaces hother elsewhere

end Search

/-! ## A relative path whose absolute form is too long -/

namespace Path

/-- **Detour** — the way into a directory that leads in and out of it as many times first. -/
def detour : Nat → Text
  | 0 => ['d']
  | n + 1 => ['d', '/', '.', '.'] ++ '/' :: detour n

theorem mem_detour {n : Nat} {c : Char} (h : c ∈ detour n) : c ∈ ['d', '/', '.'] := by
  induction n with
  | zero =>
    rw [List.mem_singleton.mp h]
    decide
  | succ n ih =>
    rcases List.mem_append.mp h with h | h
    · have hfront : ['d', '/', '.', '.'] ⊆ ['d', '/', '.'] := by simp
      exact hfront h
    · rcases List.mem_cons.mp h with rfl | h
      · decide
      · exact ih h

theorem byteLength_detour (n : Nat) : Text.byteLength (detour n) = 5 * n + 1 := by
  induction n with
  | zero => rfl
  | succ n ih =>
    have hfront : Text.byteLength ['d', '/', '.', '.'] = 4 := by decide
    have hslash : Text.byteLength ('/' :: detour n) = 1 + Text.byteLength (detour n) := rfl
    rw [detour, Text.byteLength_append, hfront, hslash, ih]
    omega

/-- A detour is clean as it is. -/
theorem clean_detour (n : Nat) :
    ∃ names, names ≠ [] ∧ CleanPath.ofPath (detour n) = ⟨[], names⟩ ∧
      ['/'].intercalate names = detour n := by
  induction n with
  | zero => exact ⟨[['d']], List.cons_ne_nil _ _, rfl, rfl⟩
  | succ n ih =>
    obtain ⟨names, hne, hclean, hwritten⟩ := ih
    refine ⟨['d'] :: ['.', '.'] :: names, List.cons_ne_nil _ _, ?_, ?_⟩
    · have hnames := CleanPath.names_append_slash ['d', '/', '.', '.'] (detour n)
      rw [hclean] at hnames
      exact congrArg (CleanPath.mk []) hnames
    · have hjoined := @Text.intercalate_append '/' [['d'], ['.', '.']] names (by simp) hne
      rw [hwritten] at hjoined
      exact hjoined

end Path

/-- A detour leads where the directory is. -/
theorem Tree.leads_detour (hbase : t.isDirectory base) (hd : t.isDirectory (['d'] :: base))
    {rest : List Path.Step} {links : Nat} {place : Location}
    (h : t.Leads (['d'] :: base) rest links place) (n : Nat) :
    t.Leads base (Path.moves (Path.detour n) ++ rest) links place := by
  have hentry : t.at? (['d'] :: base) = some .directory := by simpa [isDirectory] using hd
  have henter {path : List Path.Step} (hpath : t.Leads (['d'] :: base) path links place) :
      t.Leads base (.enter ['d'] :: path) links place :=
    .enter hbase (by decide) hentry (by simp) hpath
  induction n with
  | zero => exact henter h
  | succ n ih =>
    have hmoves : Path.moves (Path.detour (n + 1)) =
        [.enter ['d'], .up] ++ Path.moves (Path.detour n) :=
      Path.moves_append_slash ['d', '/', '.', '.'] (Path.detour n)
    rw [hmoves]
    exact henter (.up hd ih)

namespace Search

/-- A detour has no colons, and is a search path with one entry. -/
theorem directories_detour (n : Nat) : directories (some (Path.detour n)) = [Path.detour n] := by
  have hcolon : ':' ∉ Path.detour n := fun hmem => absurd (Path.mem_detour hmem) (by decide)
  have hblank : Text.allBlank (Path.detour n) = false := by
    have hd : Text.isBlank 'd' = false := by decide
    cases n <;> simp [Text.allBlank, Path.detour, hd]
  rw [directories, Text.pieces_of_not_mem hcolon]
  simp [hblank]

/-- What is looked up behind a detour stands in the directory. -/
theorem candidate_detour (n : Nat) :
    (candidate ['p'] (Path.detour n)).root = [] ∧
      (candidate ['p'] (Path.detour n)).toPath = Path.detour n ++ '/' :: ['p'] := by
  obtain ⟨names, hne, hclean, hwritten⟩ := Path.clean_detour n
  have hp : CleanPath.ofPath ['p'] = ⟨[], [['p']]⟩ := by decide
  have hcandidate : candidate ['p'] (Path.detour n) = ⟨[], names ++ [['p']]⟩ := by
    rw [candidate, hclean, hp]
    rfl
  have hjoined := @Text.intercalate_append '/' names [['p']] hne (by simp)
  rw [hwritten] at hjoined
  rw [hcandidate]
  refine ⟨rfl, ?_⟩
  rw [CleanPath.toPath, if_neg (by simp)]
  exact hjoined

/-- A program in a directory is found behind a detour that is not too long. -/
theorem program_detour (hsound : t.IsSound) (hbase : t.isDirectory base)
    (hd : t.isDirectory (['d'] :: base)) {text : Text}
    (hp : t.at? (['p'] :: ['d'] :: base) = some (.file text true)) {n : Nat}
    (hn : 5 * n + 3 ≤ pathLimit) :
    program t base (some (Path.detour n)) ['p'] =
      .ok (some (Path.join base.toPath (Path.detour n ++ '/' :: ['p']))) := by
  obtain ⟨hroot, hwritten⟩ := candidate_detour n
  have hclean := isClean_candidate ['p'] (Path.detour n)
  have hprogram : t.NamesProgram base (candidate ['p'] (Path.detour n)).toPath := by
    rw [hwritten]
    refine ⟨['p'] :: ['d'] :: base, text, ⟨by simp, ?_, ?_, 0, Nat.zero_le _, ?_⟩, hp⟩
    · intro hnul
      rcases List.mem_append.mp hnul with hnul | hnul
      · exact absurd (Path.mem_detour hnul) (by decide)
      · exact absurd hnul (by decide)
    · have hend : Text.byteLength ('/' :: ['p']) = 2 := by decide
      rw [Text.byteLength_append, Path.byteLength_detour, hend]
      omega
    · have horigin : Tree.origin base (Path.detour n ++ '/' :: ['p']) = base := by
        cases n <;> rfl
      have hsteps : Path.steps ['p'] = [.enter ['p']] := by decide
      rw [horigin, Path.steps_append_slash _ (List.cons_ne_nil _ _), hsteps]
      apply Tree.leads_detour hbase hd
      exact .enter hd (by decide) hp (by simp) (.done _)
  have hjoined := Location.toPath_join (hsound.isProper hbase) hclean hroot
    (hprogram.names_ne_nil hclean)
  rw [program_of_not_allBlank (by decide), directories_detour, List.map_singleton, firstProgram,
    probe_of_namesProgram hprogram, ← hwritten, ← hjoined]
  rfl

/-! ## The fixed point -/

/-- **A fixed point** — what is found can stand for the command, and an absolute command does
not depend on the search path, as long as that has an entry. -/
theorem program_settled (hsound : t.IsSound) (base : Location) :
    (∀ path command found, program t base path command = .ok (some found) →
      Settles t path command found) ∧
    ∀ command, Path.isAbsolute command = true →
      (∀ path other, directories path ≠ [] → directories other ≠ [] →
        program t base path command = program t base other command) ∧
      ∀ path, directories path = [] → program t base path command = .ok none := by
  refine ⟨fun path command found h => settles_of_program hsound h, ?_⟩
  intro command habsolute
  refine ⟨?_, fun path hpath => program_of_no_entries hpath⟩
  intro path other hpath hother
  rw [program_of_isAbsolute habsolute hpath, program_of_isAbsolute habsolute hother]

/-- A program that is found through a link, behind an entry that holds none, under a path that
goes up from where the link leads. -/
theorem program_settled_link :
    let path : Option Text := some "null:fd/.././../../bin/"
    let found : Text := "/dev/fd/../../../bin/sh"
    Tree.empty.IsSound ∧
      program Tree.empty ["dev"] path "sh" = .ok (some found) ∧
      Settles Tree.empty path "sh" found ∧
      program Tree.empty ["dev"] path "//bin/./sh" =
        program Tree.empty ["dev"] (some ": :proc") "//bin/./sh" := by
  intro path found
  have hfound : program Tree.empty ["dev"] path "sh" = .ok (some found) := by decide +kernel
  obtain ⟨hsettles, habsolute⟩ := program_settled Tree.isSound_empty ["dev"]
  refine ⟨Tree.isSound_empty, hfound, hsettles path "sh" found hfound, ?_⟩
  exact (habsolute "//bin/./sh" rfl).1 path (some ": :proc") (by decide) (by decide)

/-- **Not found again** — a program that is found behind a detour of four thousand bytes is not
found by the path that it was found under: from the root that path is too long. -/
theorem program_not_settled :
    let t := ((Tree.empty.put ["@root"] .directory).put ["d", "@root"] .directory).put
      ["p", "d", "@root"] (.file "#!/bin/sh\n" true)
    let path : Option Text := some (Path.detour 818)
    let found : Text := "/@root/" ++ (Path.detour 818 ++ "/p")
    t.IsSound ∧ t.isDirectory ["@root"] ∧ directories path ≠ [] ∧
      program t ["@root"] path "p" = .ok (some found) ∧
      program t ["@root"] path found = .error ⟨.nameTooLong, some found⟩ := by
  intro t path found
  have hsound : t.IsSound := by
    refine Tree.IsSound.put ?_ (by decide) (by decide) (by decide)
    refine Tree.IsSound.put ?_ (by decide) (by decide) (by decide)
    exact Tree.isSound_empty.put (by decide) (by decide) (by decide)
  have hfound : program t ["@root"] path "p" = .ok (some found) :=
    program_detour hsound (by decide) (by decide) rfl (by decide)
  have hentries : directories path ≠ [] := by
    rw [directories_detour]
    exact List.cons_ne_nil _ _
  have hlong : ¬ Text.byteLength found ≤ pathLimit := by
    have hfront : Text.byteLength "/@root/" = 7 := by decide
    have hend : Text.byteLength "/p" = 2 := by decide
    rw [Text.byteLength_append, Text.byteLength_append, Path.byteLength_detour, hfront, hend]
    decide
  refine ⟨hsound, by decide, hentries, hfound, ?_⟩
  rw [(settles_of_program hsound hfound).again path ["@root"] hentries, if_neg hlong]

end Search

end LineShell
