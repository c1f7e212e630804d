/-
# LineShell.Proofs.Text.Trimmed -- texts without white space at their ends

Trimming takes white space away at the two ends of a text and nothing else
(`exists_append_trimStart`, `exists_trimEnd_append`). What is left is trimmed
(`isTrimmed_trim`), and a trimmed text is what trimming leaves alone (`IsTrimmed.trim_eq`).

The parts of a trimmed text are trimmed at one end each: one that it begins with at its
start, one that it ends with at its end. Trimming them cannot use them up.
-/

import LineShell.Text.Classes

namespace LineShell.Text

variable {t first rest : Text}

/-! ## White space -/

theorem allBlank_append : allBlank (first ++ rest) = true ↔
    allBlank first = true ∧ allBlank rest = true := by
  rw [allBlank, List.all_append, Bool.and_eq_true]
  rfl

/-- The last character of white space. -/
theorem exists_concat_of_allBlank (h : allBlank t = true) (hne : t ≠ []) :
    ∃ front blank, t = front ++ [blank] ∧ isBlank blank = true := by
  obtain ⟨front, blank, rfl⟩ := (List.eq_nil_or_concat t).resolve_left hne
  rw [List.concat_eq_append] at h ⊢
  exact ⟨front, blank, rfl, List.all_eq_true.mp h blank (by simp)⟩

/-! ## What trimming takes away -/

theorem trimEnd_eq_reverse (t : Text) : trimEnd t = (trimStart t.reverse).reverse := rfl

/-- White space is all that is lost at the front. -/
theorem exists_append_trimStart (t : Text) :
    ∃ blanks, allBlank blanks = true ∧ blanks ++ trimStart t = t :=
  ⟨t.takeWhile isBlank, List.all_takeWhile, List.takeWhile_append_dropWhile⟩

/-- White space is all that is lost at the end. -/
theorem exists_trimEnd_append (t : Text) :
    ∃ blanks, allBlank blanks = true ∧ trimEnd t ++ blanks = t := by
  obtain ⟨blanks, hblank, h⟩ := exists_append_trimStart t.reverse
  refine ⟨blanks.reverse, by simpa [allBlank] using hblank, ?_⟩
  rw [trimEnd_eq_reverse, ← List.reverse_append, h, List.reverse_reverse]

/-- A text of which nothing is left was white space. -/
theorem allBlank_of_trimStart_eq_nil (h : trimStart t = []) : allBlank t = true := by
  obtain ⟨blanks, hblank, ht⟩ := exists_append_trimStart t
  rw [h, List.append_nil] at ht
  rwa [← ht]

theorem allBlank_of_trimEnd_eq_nil (h : trimEnd t = []) : allBlank t = true := by
  obtain ⟨blanks, hblank, ht⟩ := exists_trimEnd_append t
  rw [h, List.nil_append] at ht
  rwa [← ht]

/-- White space is all that is lost at both ends. -/
theorem exists_trim_append (t : Text) : ∃ behind, allBlank behind = true ∧
    t.takeWhile isBlank ++ (trim t ++ behind) = t := by
  obtain ⟨behind, hblank, hbehind⟩ := exists_trimEnd_append (trimStart t)
  refine ⟨behind, hblank, ?_⟩
  rw [trim, hbehind]
  exact List.takeWhile_append_dropWhile

/-- White space at the end of a text is that of the part behind a cut, unless this is all white
space. -/
theorem trimEnd_append (first rest : Text) :
    trimEnd (first ++ rest) = if trimEnd rest = [] then trimEnd first else first ++ trimEnd rest := by
  simp only [trimEnd, List.reverse_append, List.dropWhile_append, List.reverse_eq_nil_iff,
    List.isEmpty_iff]
  split
  · rfl
  · rw [List.reverse_append, List.reverse_reverse]

/-- What stands between two texts that are not all white space is left alone. -/
theorem trim_append_append (hfirst : trimStart first ≠ []) (hrest : trimEnd rest ≠ [])
    (between : Text) :
    trim (first ++ (between ++ rest)) = trimStart first ++ (between ++ trimEnd rest) := by
  have hstart : trimStart (first ++ (between ++ rest)) = trimStart first ++ (between ++ rest) := by
    rw [trimStart, List.dropWhile_append, if_neg (by simpa [trimStart] using hfirst)]
    rfl
  rw [trim, hstart, ← List.append_assoc, trimEnd_append, if_neg hrest, List.append_assoc]

/-- What is left begins with no white space. -/
theorem not_isBlank_of_head?_trimStart {c : Char} (h : (trimStart t).head? = some c) :
    isBlank c = false := by
  have hnot := List.head?_dropWhile_not isBlank t
  change (t.dropWhile isBlank).head? = some c at h
  rwa [h] at hnot

theorem trimStart_eq_self (h : ∀ c ∈ t.head?, isBlank c = false) : trimStart t = t := by
  cases t with
  | nil => rfl
  | cons c rest => exact trimStart_of_head (h c rfl)

theorem trimEnd_eq_self (h : ∀ c ∈ t.getLast?, isBlank c = false) : trimEnd t = t := by
  rw [trimEnd_eq_reverse, trimStart_eq_self, List.reverse_reverse]
  rwa [List.head?_reverse]

/-- White space at the end of a text that does not begin with it never reaches the front. -/
theorem head?_trimEnd (h : ∀ c ∈ t.head?, isBlank c = false) : (trimEnd t).head? = t.head? := by
  obtain ⟨blanks, hblank, ht⟩ := exists_trimEnd_append t
  cases hleft : trimEnd t with
  | cons c rest =>
    rw [← ht, hleft]
    rfl
  | nil =>
    -- otherwise the text would begin with white space, or be empty
    rw [hleft, List.nil_append] at ht
    subst ht
    cases blanks with
    | nil => rfl
    | cons c rest =>
      have hc : isBlank c = true := List.all_eq_true.mp hblank c List.mem_cons_self
      rw [h c rfl] at hc
      exact absurd hc (by simp)

theorem trimEnd_ne_nil (h : ∀ c ∈ t.head?, isBlank c = false) (hne : t ≠ []) :
    trimEnd t ≠ [] := by
  intro hnil
  have hhead := head?_trimEnd h
  rw [hnil, eq_comm, List.head?_nil, List.head?_eq_none_iff] at hhead
  exact hne hhead

theorem trimStart_ne_nil (h : ∀ c ∈ t.getLast?, isBlank c = false) (hne : t ≠ []) :
    trimStart t ≠ [] := by
  intro hnil
  refine trimEnd_ne_nil (t := t.reverse) ?_ (by simpa using hne) ?_
  · rwa [List.head?_reverse]
  · rw [trimEnd_eq_reverse, List.reverse_reverse, hnil]
    rfl

/-! ## Trimmed texts -/

/-- **Trimmed** — no white space stands at the two ends. -/
structure IsTrimmed (t : Text) : Prop where
  head : ∀ c ∈ t.head?, isBlank c = false
  last : ∀ c ∈ t.getLast?, isBlank c = false

theorem isTrimmed_iff : IsTrimmed t ↔
    t.head?.all (! isBlank ·) = true ∧ t.getLast?.all (! isBlank ·) = true := by
  simp only [Option.all_eq_true, Bool.not_eq_true']
  exact ⟨fun h => ⟨h.head, h.last⟩, fun h => ⟨h.1, h.2⟩⟩

instance (t : Text) : Decidable (IsTrimmed t) := decidable_of_iff' _ isTrimmed_iff

theorem isTrimmed_trim (t : Text) : IsTrimmed (trim t) := by
  have hstart : ∀ c ∈ (trimStart t).head?, isBlank c = false :=
    fun c hc => not_isBlank_of_head?_trimStart hc
  constructor
  · rw [trim, head?_trimEnd hstart]
    exact hstart
  · intro c hc
    rw [trim, trimEnd_eq_reverse, List.getLast?_reverse] at hc
    exact not_isBlank_of_head?_trimStart hc

/-- Trimming adds no characters. -/
theorem mem_of_mem_trim {c : Char} (h : c ∈ trim t) : c ∈ t := by
  have hstart : c ∈ trimStart t :=
    List.mem_reverse.mp ((List.dropWhile_sublist _).subset (List.mem_reverse.mp h))
  exact (List.dropWhile_sublist _).subset hstart

/-- Trimming takes no other characters than white space. -/
theorem mem_trim_of_not_isBlank {c : Char} (h : c ∈ t) (hc : isBlank c = false) : c ∈ trim t := by
  obtain ⟨behind, hbehind, ht⟩ := exists_trim_append t
  have hnot : ∀ blanks, allBlank blanks = true → c ∉ blanks := by
    intro blanks hblanks hmem
    rw [List.all_eq_true.mp hblanks c hmem] at hc
    exact absurd hc (by simp)
  rw [← ht, List.mem_append, List.mem_append] at h
  rcases h with hmem | hmem | hmem
  · exact absurd hmem (hnot _ List.all_takeWhile)
  · exact hmem
  · exact absurd hmem (hnot behind hbehind)

theorem IsTrimmed.trim_eq (h : IsTrimmed t) : trim t = t := by
  rw [trim, trimStart_eq_self h.head, trimEnd_eq_self h.last]

/-- A text that begins a trimmed one is trimmed by taking white space from its end. -/
theorem IsTrimmed.trim_left (h : IsTrimmed (first ++ rest)) : trim first = trimEnd first := by
  cases first with
  | nil => rfl
  | cons c more => rw [trim, trimStart_of_head (h.head c rfl)]

/-- A text that ends a trimmed one is trimmed by taking white space from its start. -/
theorem IsTrimmed.trim_right (h : IsTrimmed (first ++ rest)) : trim rest = trimStart rest := by
  refine trimEnd_eq_self fun c hc => h.last c ?_
  obtain ⟨blanks, -, hrest⟩ := exists_append_trimStart rest
  rw [← hrest, List.getLast?_append, List.getLast?_append, Option.mem_def.mp hc]
  rfl

theorem IsTrimmed.trim_left_ne_nil (h : IsTrimmed (first ++ rest)) (hne : first ≠ []) :
    trim first ≠ [] := by
  rw [h.trim_left]
  refine trimEnd_ne_nil (fun c hc => h.head c ?_) hne
  rw [List.head?_append, Option.mem_def.mp hc]
  rfl

theorem IsTrimmed.trim_right_ne_nil (h : IsTrimmed (first ++ rest)) (hne : rest ≠ []) :
    trim rest ≠ [] := by
  rw [h.trim_right]
  refine trimStart_ne_nil (fun c hc => h.last c ?_) hne
  rw [List.getLast?_append, Option.mem_def.mp hc]
  rfl

/-- Two trimmed texts that are not empty stay trimmed around anything. -/
theorem IsTrimmed.append (hfirst : IsTrimmed first) (hrest : IsTrimmed rest) (hne : first ≠ [])
    (hne' : rest ≠ []) (between : Text) : IsTrimmed (first ++ (between ++ rest)) := by
  constructor
  · obtain ⟨c, more, rfl⟩ := List.exists_cons_of_ne_nil hne
    exact hfirst.head
  · intro c hc
    rw [List.getLast?_append, List.getLast?_append] at hc
    obtain ⟨d, hd⟩ := Option.ne_none_iff_exists'.mp fun h => hne' (List.getLast?_eq_none_iff.mp h)
    rw [hd] at hc
    exact hrest.last c (hd.trans hc)

end LineShell.Text
