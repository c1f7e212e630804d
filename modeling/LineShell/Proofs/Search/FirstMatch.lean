/-
# LineShell.Proofs.Search.FirstMatch -- a command is the first program on the search path

A search path is a text. What counts of it are the parts between its colons that are not
blank, in order (`HasEntries`). The candidate of an entry for a command is the path of the
command taken from the entry, written cleanly. A candidate decides the search if it names an
executable file, links followed, or if it cannot be asked for; otherwise it is passed over.

`ComesTo` tells from this, without searching, what a search comes to: the first entry that
decides it is the only one that matters. The search comes to that and to nothing else
(`program_eq_iff_comesTo`).

Two search paths with a colon between them are searched one after the other
(`program_in_turn`), so that what is found on the first is found on both, and a search path
on which nothing is found can be left out wherever it stands.
-/

import LineShell.Proofs.Path.Clean
import LineShell.Proofs.Tree.Overlong

namespace LineShell

/-! ## What a path is taken for -/

namespace Tree

variable (t : Tree) (base : Location) (path : Text)

/-- **Names a program** — the path names an executable file. -/
def NamesProgram : Prop :=
  ∃ place text, t.Names base path place ∧ t.at? place = some (.file text true)

/-- **Cannot be asked for** — the path is overlong. A path with a NUL is never asked for. -/
def CannotBeAskedFor : Prop := '\x00' ∉ path ∧ t.IsOverlong base path

/-- **Passed over** — the path can be asked for, and does not name an executable file. -/
def PassedOver : Prop := ¬ t.NamesProgram base path ∧ ¬ t.CannotBeAskedFor base path

end Tree

namespace Search

variable {t : Tree} {base : Location} {path : Option Text} {command : Text}

/-! ## Entries -/

/-- **Entries** — the parts between the colons of a search path that are not blank, in order. -/
inductive HasEntries : Option Text → List Text → Prop
  | unset : HasEntries none []
  | parts {parts : List Text} : parts ≠ [] → (∀ part ∈ parts, ':' ∉ part) →
      HasEntries (some ([':'].intercalate parts)) (parts.filter (! Text.allBlank ·))

theorem hasEntries_iff {entries : List Text} :
    HasEntries path entries ↔ directories path = entries := by
  constructor
  · rintro (_ | ⟨hne, hparts⟩)
    · rfl
    · show (Text.pieces ':' _).filter _ = _
      rw [Text.pieces_intercalate hne hparts]
  · rintro rfl
    cases path with
    | none => exact .unset
    | some path =>
      have hparts := HasEntries.parts (Text.pieces_ne_nil ':' path)
        fun part hpart => Text.not_mem_of_mem_pieces hpart
      rw [Text.intercalate_pieces] at hparts
      exact hparts

/-! ## Candidates -/

/-- The path that is asked for: the command taken from an entry. -/
def candidatePath (command entry : Text) : Text := Path.clean (Path.join entry command)

theorem toPath_candidate (command entry : Text) :
    (candidate command entry).toPath = candidatePath command entry := by
  rw [candidatePath, Path.clean, CleanPath.ofPath_join]
  rfl

theorem isClean_candidate (command entry : Text) : (candidate command entry).IsClean :=
  (CleanPath.isClean_ofPath entry).join (CleanPath.isClean_ofPath command)

/-! ## Asking for a candidate -/

theorem probe_of_namesProgram {candidate : CleanPath}
    (h : t.NamesProgram base candidate.toPath) : probe t base candidate = .ok true := by
  obtain ⟨place, text, hnames, hentry⟩ := h
  have hlocate := (Tree.locate_eq_ok_iff hnames.nul_not_mem).mpr hnames
  unfold probe
  dsimp only
  rw [if_neg (mt List.contains_iff_mem.mp hnames.nul_not_mem), hlocate]
  dsimp only
  rw [hentry]

theorem probe_of_cannotBeAskedFor {candidate : CleanPath} (hclean : candidate.IsClean)
    (h : t.CannotBeAskedFor base candidate.toPath) :
    probe t base candidate = .error ⟨.nameTooLong, some candidate.toPath⟩ := by
  have hlocate := (Tree.locate_eq_nameTooLong_iff hclean.toPath_ne_nil).mpr h.2
  unfold probe
  dsimp only
  rw [if_neg (mt List.contains_iff_mem.mp h.1), hlocate]

theorem probe_of_passedOver {candidate : CleanPath} (hclean : candidate.IsClean)
    (h : t.PassedOver base candidate.toPath) : probe t base candidate = .ok false := by
  unfold probe
  dsimp only
  split
  · rfl
  · rename_i hnul
    rw [List.contains_iff_mem] at hnul
    split
    · rename_i place hlocate
      split
      · rename_i text executable hentry
        cases executable with
        | false => rfl
        | true => exact absurd ⟨place, text, (Tree.locate_eq_ok_iff hnul).mp hlocate, hentry⟩ h.1
      · rfl
    · rename_i hlocate
      exact absurd ⟨hnul, (Tree.locate_eq_nameTooLong_iff hclean.toPath_ne_nil).mp hlocate⟩ h.2
    · rfl

/-! ## The first entry that decides -/

/-- **Comes to** — what looking up a command on a search path comes to, told by the first
entry whose candidate is not passed over. -/
inductive ComesTo (t : Tree) (base : Location) (path : Option Text) (command : Text) :
    Except SystemError (Option Text) → Prop
  | blank : Text.allBlank command = true → ComesTo t base path command (.ok none)
  | found {before behind : List Text} {entry : Text} : Text.allBlank command = false →
      HasEntries path (before ++ entry :: behind) →
      (∀ earlier ∈ before, t.PassedOver base (candidatePath command earlier)) →
      t.NamesProgram base (candidatePath command entry) →
      ComesTo t base path command
        (.ok (some (Path.clean (Path.join base.toPath (candidatePath command entry)))))
  | failed {before behind : List Text} {entry : Text} : Text.allBlank command = false →
      HasEntries path (before ++ entry :: behind) →
      (∀ earlier ∈ before, t.PassedOver base (candidatePath command earlier)) →
      t.CannotBeAskedFor base (candidatePath command entry) →
      ComesTo t base path command (.error ⟨.nameTooLong, some (candidatePath command entry)⟩)
  | nothing {entries : List Text} : Text.allBlank command = false → HasEntries path entries →
      (∀ entry ∈ entries, t.PassedOver base (candidatePath command entry)) →
      ComesTo t base path command (.ok none)

/-- Entries that are passed over are of no account. -/
theorem firstProgram_of_passedOver {before : List Text}
    (h : ∀ earlier ∈ before, t.PassedOver base (candidatePath command earlier))
    (rest : List Text) :
    firstProgram t base ((before ++ rest).map (candidate command)) =
      firstProgram t base (rest.map (candidate command)) := by
  have hnone : firstProgram t base (before.map (candidate command)) = .ok none := by
    rw [firstProgram_eq_none_iff]
    intro place hplace
    obtain ⟨earlier, hearlier, rfl⟩ := List.mem_map.mp hplace
    apply probe_of_passedOver (isClean_candidate command earlier)
    rw [toPath_candidate]
    exact h earlier hearlier
  rw [List.map_append, firstProgram_append, hnone]

theorem program_of_not_allBlank (h : Text.allBlank command = false) :
    program t base path command =
      (firstProgram t base ((directories path).map (candidate command))).map
        (·.map fun found => ((CleanPath.ofPath base.toPath).join found).toPath) := by
  unfold program
  rw [if_neg (by simp [h])]

theorem program_of_comesTo {result : Except SystemError (Option Text)}
    (h : ComesTo t base path command result) : program t base path command = result := by
  cases h with
  | blank hblank => exact if_pos hblank
  | @found before behind entry hcommand hentries hbefore hprogram =>
    have hprobe : probe t base (candidate command entry) = .ok true := by
      apply probe_of_namesProgram
      rw [toPath_candidate]
      exact hprogram
    rw [program_of_not_allBlank hcommand, hasEntries_iff.mp hentries,
      firstProgram_of_passedOver hbefore, List.map_cons, firstProgram, hprobe]
    show Except.ok (some ((CleanPath.ofPath base.toPath).join (candidate command entry)).toPath) = _
    rw [Path.toPath_join (isClean_candidate command entry), toPath_candidate]
  | @failed before behind entry hcommand hentries hbefore hfails =>
    have hprobe := probe_of_cannotBeAskedFor (isClean_candidate command entry)
      (by rw [toPath_candidate]; exact hfails)
    rw [program_of_not_allBlank hcommand, hasEntries_iff.mp hentries,
      firstProgram_of_passedOver hbefore, List.map_cons, firstProgram, hprobe, toPath_candidate]
    rfl
  | @nothing entries hcommand hentries hpassed =>
    have hnone := firstProgram_of_passedOver hpassed []
    rw [List.append_nil] at hnone
    rw [program_of_not_allBlank hcommand, hasEntries_iff.mp hentries, hnone]
    rfl

theorem exists_comesTo (t : Tree) (base : Location) (path : Option Text) (command : Text) :
    ∃ result, ComesTo t base path command result := by
  classical
  cases hcommand : Text.allBlank command with
  | true => exact ⟨_, .blank hcommand⟩
  | false =>
    have hentries : HasEntries path (directories path) := hasEntries_iff.mpr rfl
    -- the first entry that is not passed over, if there is one
    rcases hfirst : (directories path).find? fun entry =>
      ¬ t.PassedOver base (candidatePath command entry) with _ | entry
    · refine ⟨_, .nothing hcommand hentries fun entry hentry => ?_⟩
      simpa using List.find?_eq_none.mp hfirst entry hentry
    · obtain ⟨hdecides, before, behind, hcut, hbefore⟩ := List.find?_eq_some_iff_append.mp hfirst
      rw [hcut] at hentries
      have hpassed : ∀ earlier ∈ before, t.PassedOver base (candidatePath command earlier) := by
        intro earlier hearlier
        simpa using hbefore earlier hearlier
      by_cases hprogram : t.NamesProgram base (candidatePath command entry)
      · exact ⟨_, .found hcommand hentries hpassed hprogram⟩
      · refine ⟨_, .failed hcommand hentries hpassed ?_⟩
        by_contra hasked
        exact of_decide_eq_true hdecides ⟨hprogram, hasked⟩

/-- **First match** — looking up a command comes to what its first entry that decides says, and
to nothing else. -/
theorem program_eq_iff_comesTo (t : Tree) (base : Location) (path : Option Text)
    (command : Text) (result : Except SystemError (Option Text)) :
    program t base path command = result ↔ ComesTo t base path command result := by
  constructor
  · intro h
    obtain ⟨other, hother⟩ := exists_comesTo t base path command
    rw [program_of_comesTo hother] at h
    exact h ▸ hother
  · exact program_of_comesTo

/-- A blank entry does not count, and a directory that does not hold the program is passed
over. -/
example : program Tree.empty [] (some " :dev::bin:proc") "sh" = .ok (some "/bin/sh") := by
  decide +kernel

/-! ## Search paths put together -/

/-- **In turn** — the first result, or the second one if the first comes to nothing. -/
def inTurn (first second : Except SystemError (Option Text)) : Except SystemError (Option Text) :=
  match first with
  | .ok none => second
  | found => found

@[simp] theorem inTurn_none_left (result : Except SystemError (Option Text)) :
    inTurn (.ok none) result = result := rfl

@[simp] theorem inTurn_none_right (result : Except SystemError (Option Text)) :
    inTurn result (.ok none) = result := by
  rcases result with failure | _ | found <;> rfl

/-- The entries of two search paths with a colon between them are those of the one and the
other. -/
theorem directories_append (first second : Text) :
    directories (some (first ++ ':' :: second)) =
      directories (some first) ++ directories (some second) := by
  show (Text.pieces ':' (first ++ ':' :: second)).filter _ = _
  rw [Text.pieces_append_sep, List.filter_append]
  rfl

theorem program_append (t : Tree) (base : Location) (first second command : Text) :
    program t base (some (first ++ ':' :: second)) command =
      inTurn (program t base (some first) command) (program t base (some second) command) := by
  cases hcommand : Text.allBlank command with
  | true =>
    have hnone (path : Option Text) : program t base path command = .ok none := if_pos hcommand
    rw [hnone, hnone, hnone, inTurn_none_left]
  | false =>
    rw [program_of_not_allBlank hcommand, program_of_not_allBlank hcommand,
      program_of_not_allBlank hcommand, directories_append, List.map_append, firstProgram_append]
    rcases firstProgram t base ((directories (some first)).map (candidate command)) with
      failure | _ | found <;> rfl

/-- **Ordered choice** — of two search paths with a colon between them the second counts only
if the first comes to nothing. What is found on a search path is found whatever is appended to
it, and one that comes to nothing can be left out in front, at the end and in the middle. -/
theorem program_in_turn (t : Tree) (base : Location) (first second command : Text) :
    program t base (some (first ++ ':' :: second)) command =
        inTurn (program t base (some first) command) (program t base (some second) command) ∧
      (∀ found, program t base (some first) command = .ok (some found) →
        program t base (some (first ++ ':' :: second)) command = .ok (some found)) ∧
      ∀ idle, program t base (some idle) command = .ok none →
        program t base (some (idle ++ ':' :: second)) command =
            program t base (some second) command ∧
          program t base (some (first ++ ':' :: idle)) command =
            program t base (some first) command ∧
          program t base (some (first ++ ':' :: (idle ++ ':' :: second))) command =
            program t base (some (first ++ ':' :: second)) command := by
  refine ⟨program_append t base first second command, ?_, ?_⟩
  · intro found hfound
    rw [program_append, hfound]
    rfl
  · intro idle hidle
    refine ⟨?_, ?_, ?_⟩
    · rw [program_append, hidle, inTurn_none_left]
    · rw [program_append, hidle, inTurn_none_right]
    · rw [program_append, program_append t base idle, hidle, inTurn_none_left, ← program_append]

end Search
end LineShell
