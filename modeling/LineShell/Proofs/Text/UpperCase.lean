/-
# LineShell.Proofs.Text.UpperCase -- what upper-casing leaves alone

Capital forms are read off two tables, and what is said here of all characters is checked on
the ranges of those tables. White space has no capital form, and no capital form has white space
in it, so that trimming a text and putting it into upper case can be done in either order
(`trim_upper`).

A second upper-casing may be left out where plain words are asked for, words made of the ASCII
capitals (`upper_upper_eq_iff`). Some letters outside ASCII have a capital form of ASCII capitals
alone, such as the dotless i and the ligatures. Together with the ASCII small letters they are the
characters of `plainlyCased`, and none of these is a capital itself.
-/

import LineShell.Text.UpperCase
import LineShell.Proofs.Text.Trimmed

namespace LineShell.Text

variable {c d : Char} {t : Text}

/-! ## The tables -/

/-- The code point lies in one of the ranges, ends included. -/
def InRanges (ranges : List (Nat × Nat)) (n : Nat) : Prop :=
  ∃ range ∈ ranges, range.1 ≤ n ∧ n ≤ range.2

instance (ranges : List (Nat × Nat)) (n : Nat) : Decidable (InRanges ranges n) :=
  List.decidableBEx (fun range : Nat × Nat => range.1 ≤ n ∧ n ≤ range.2) ranges

/-- Two lists of ranges have no code point in common. -/
def areApart (ranges others : List (Nat × Nat)) : Bool :=
  ranges.all fun range => others.all fun other =>
    range.2.blt other.1 || other.2.blt range.1

theorem not_inRanges_of_areApart {ranges others : List (Nat × Nat)} {n : Nat}
    (h : areApart ranges others = true) (hn : InRanges ranges n) : ¬ InRanges others n := by
  obtain ⟨range, hrange, hlow, hhigh⟩ := hn
  rintro ⟨other, hother, hlow', hhigh'⟩
  have hpair := List.all_eq_true.mp (List.all_eq_true.mp h range hrange) other hother
  simp only [Bool.or_eq_true, Nat.blt_eq] at hpair
  omega

/-- **Small letters** — the ranges of the characters that have a capital form. -/
def letterRanges : List (Nat × Nat) :=
  caseRuns.map (fun run => (run.first, run.last)) ++
    caseExpansions.map fun entry => (entry.1, entry.1)

/-- **Capitals** — ranges that hold the characters of all capital forms. -/
def capitalRanges : List (Nat × Nat) :=
  caseRuns.map (fun run => (run.capital, run.capital + (run.last - run.first))) ++
    caseExpansions.flatMap fun entry => entry.2.map fun n => (n, n)

/-- White space, each character as a range of its own. -/
def blankRanges : List (Nat × Nat) := blanks.map fun n => (n, n)

theorem isBlank_iff : isBlank c = true ↔ InRanges blankRanges c.toNat := by
  simp only [isBlank, List.contains_iff_mem, InRanges, blankRanges, List.mem_map]
  constructor
  · intro h
    exact ⟨_, ⟨_, h, rfl⟩, Nat.le_refl _, Nat.le_refl _⟩
  · rintro ⟨_, ⟨n, hn, rfl⟩, hlow, hhigh⟩
    obtain rfl : n = c.toNat := Nat.le_antisymm hlow hhigh
    exact hn

/-- The capital form comes from one of the tables, or the character stands for itself. -/
theorem upperChar_cases (c : Char) :
    (∃ entry ∈ caseExpansions, entry.1 = c.toNat ∧ upperChar c = entry.2.map Char.ofNat) ∨
    (∃ run ∈ caseRuns, (run.first ≤ c.toNat ∧ c.toNat ≤ run.last) ∧
      upperChar c = [Char.ofNat (run.capital + (c.toNat - run.first))]) ∨
    upperChar c = [c] := by
  unfold upperChar
  split
  · rename_i capitals hlookup
    obtain ⟨before, behind, htable, -⟩ := List.lookup_eq_some_iff.mp hlookup
    refine .inl ⟨(c.toNat, capitals), ?_, rfl, rfl⟩
    rw [htable]
    simp
  · split
    · rename_i run hfind
      have hholds := List.find?_some hfind
      simp only [CaseRun.holds, Bool.and_eq_true, decide_eq_true_eq] at hholds
      exact .inr (.inl ⟨run, List.mem_of_find?_eq_some hfind, hholds.1, rfl⟩)
    · exact .inr (.inr rfl)

/-- A character that is no small letter stands for itself. -/
theorem upperChar_eq_self (h : ¬ InRanges letterRanges c.toNat) : upperChar c = [c] := by
  rcases upperChar_cases c with ⟨entry, hentry, hkey, -⟩ | ⟨run, hrun, ⟨hfirst, hlast⟩, -⟩ | h'
  · refine absurd ⟨(entry.1, entry.1), ?_, ?_⟩ h
    · exact List.mem_append_right _ (List.mem_map.mpr ⟨entry, hentry, rfl⟩)
    · simp [hkey]
  · refine absurd ⟨(run.first, run.last), ?_, hfirst, hlast⟩ h
    exact List.mem_append_left _ (List.mem_map.mpr ⟨run, hrun, rfl⟩)
  · exact h'

/-- The capital ranges have code points of characters only. -/
theorem isValidChar_of_capital {n : Nat} (h : InRanges capitalRanges n) : n.isValidChar := by
  have hvalid : capitalRanges.all (fun range =>
      range.2.blt 0xd800 || (Nat.blt 0xdfff range.1 && range.2.blt 0x110000)) = true := by
    decide +kernel
  obtain ⟨range, hrange, hlow, hhigh⟩ := h
  have hrange := List.all_eq_true.mp hvalid range hrange
  simp only [Bool.or_eq_true, Bool.and_eq_true, Nat.blt_eq] at hrange
  rcases hrange with hlt | ⟨hgt, hlt⟩
  · exact .inl (by omega)
  · exact .inr ⟨by omega, by omega⟩

theorem toNat_ofNat {n : Nat} (h : n.isValidChar) : (Char.ofNat n).toNat = n := by
  rw [Char.ofNat, dif_pos h]
  rfl

/-- What a run makes of its letters are capitals. -/
theorem capital_of_run {run : CaseRun} {n : Nat} (hrun : run ∈ caseRuns)
    (hn : run.first ≤ n ∧ n ≤ run.last) :
    InRanges capitalRanges (run.capital + (n - run.first)) := by
  refine ⟨_, List.mem_append_left _ (List.mem_map.mpr ⟨run, hrun, rfl⟩), ?_, ?_⟩
  · exact Nat.le_add_right _ _
  · exact Nat.add_le_add_left (Nat.sub_le_sub_right hn.2 _) _

/-- What a capital form is made of: the character itself, or capitals. -/
theorem eq_singleton_or_capital (c : Char) :
    upperChar c = [c] ∨ ∀ d ∈ upperChar c, InRanges capitalRanges d.toNat := by
  rcases upperChar_cases c with ⟨entry, hentry, -, heq⟩ | ⟨run, hrun, hholds, heq⟩ | heq
  · refine .inr fun d hd => ?_
    rw [heq] at hd
    obtain ⟨n, hn, rfl⟩ := List.mem_map.mp hd
    have hin : InRanges capitalRanges n := by
      refine ⟨(n, n), List.mem_append_right _ ?_, Nat.le_refl n, Nat.le_refl n⟩
      exact List.mem_flatMap.mpr ⟨entry, hentry, List.mem_map.mpr ⟨n, hn, rfl⟩⟩
    rwa [toNat_ofNat (isValidChar_of_capital hin)]
  · refine .inr fun d hd => ?_
    rw [heq] at hd
    obtain rfl := List.mem_singleton.mp hd
    have hin := capital_of_run hrun hholds
    rwa [toNat_ofNat (isValidChar_of_capital hin)]
  · exact .inl heq

theorem upperChar_ne_nil (c : Char) : upperChar c ≠ [] := by
  have hforms : caseExpansions.all (fun entry => !entry.2.isEmpty) = true := by decide +kernel
  rcases upperChar_cases c with ⟨entry, hentry, -, heq⟩ | ⟨run, -, -, heq⟩ | heq
  · have hform := List.all_eq_true.mp hforms entry hentry
    rw [heq]
    intro hnil
    rw [List.map_eq_nil_iff.mp hnil] at hform
    exact absurd hform (by decide)
  · simp [heq]
  · simp [heq]

/-! ## White space -/

theorem areApart_blanks_letters : areApart blankRanges letterRanges = true := by decide +kernel

theorem areApart_capitals_blanks : areApart capitalRanges blankRanges = true := by decide +kernel

/-- White space stands for itself. -/
theorem upperChar_of_isBlank (h : isBlank c = true) : upperChar c = [c] :=
  upperChar_eq_self (not_inRanges_of_areApart areApart_blanks_letters (isBlank_iff.mp h))

/-- What is no white space has none in its capital form. -/
theorem not_isBlank_of_mem_upperChar (hc : isBlank c = false) (hd : d ∈ upperChar c) :
    isBlank d = false := by
  rcases eq_singleton_or_capital c with heq | hcapital
  · rw [heq] at hd
    rw [List.mem_singleton.mp hd, hc]
  · have hblank := not_inRanges_of_areApart areApart_capitals_blanks (hcapital d hd)
    rwa [← isBlank_iff, Bool.not_eq_true] at hblank

/-- **Keeps blanks** — the replacement of characters by texts leaves white space alone and makes
none. -/
structure KeepsBlanks (f : Char → Text) : Prop where
  of_blank : ∀ c, isBlank c = true → f c = [c]
  ne_nil : ∀ c, f c ≠ []
  of_not_blank : ∀ c, isBlank c = false → ∀ d ∈ f c, isBlank d = false

theorem keepsBlanks_upperChar : KeepsBlanks upperChar where
  of_blank _ := upperChar_of_isBlank
  ne_nil := upperChar_ne_nil
  of_not_blank _ hc _ := not_isBlank_of_mem_upperChar hc

namespace KeepsBlanks

variable {f : Char → Text} (h : KeepsBlanks f)
include h

theorem reverse : KeepsBlanks (List.reverse ∘ f) where
  of_blank c hc := by simp [h.of_blank c hc]
  ne_nil c := by simp [h.ne_nil c]
  of_not_blank c hc d hd := h.of_not_blank c hc d (List.mem_reverse.mp hd)

theorem trimStart_flatMap (t : Text) : trimStart (t.flatMap f) = (trimStart t).flatMap f := by
  induction t with
  | nil => rfl
  | cons c rest ih =>
    cases hc : isBlank c with
    | true =>
      have hleft : trimStart (c :: rest.flatMap f) = trimStart (rest.flatMap f) := by
        simp [trimStart, hc]
      have hright : trimStart (c :: rest) = trimStart rest := by
        simp [trimStart, hc]
      rw [List.flatMap_cons, h.of_blank c hc, List.singleton_append, hleft, ih, hright]
    | false =>
      -- the first character of what stands for `c` ends the trimming on both sides
      obtain ⟨d, more, hf⟩ := List.exists_cons_of_ne_nil (h.ne_nil c)
      have hd : isBlank d = false := h.of_not_blank c hc d (by simp [hf])
      rw [trimStart_of_head hc, List.flatMap_cons, hf, List.cons_append, trimStart_of_head hd]

theorem trimEnd_flatMap (t : Text) : trimEnd (t.flatMap f) = (trimEnd t).flatMap f := by
  rw [trimEnd_eq_reverse, List.reverse_flatMap, h.reverse.trimStart_flatMap, List.reverse_flatMap,
    ← trimEnd_eq_reverse]
  congr 1
  funext c
  exact List.reverse_reverse (f c)

end KeepsBlanks

/-- **Trimming and upper-casing** can be done in either order. -/
theorem trim_upper (t : Text) : trim (upper t) = upper (trim t) := by
  rw [trim, upper, keepsBlanks_upperChar.trimStart_flatMap, keepsBlanks_upperChar.trimEnd_flatMap]
  rfl

/-! ## Plain words -/

/-- The ASCII capitals. -/
def plainRanges : List (Nat × Nat) := [(0x41, 0x5a)]

/-- **Plain word** — the text is made of ASCII capitals. -/
def IsPlainWord (t : Text) : Prop := ∀ c ∈ t, InRanges plainRanges c.toNat

instance (t : Text) : Decidable (IsPlainWord t) :=
  List.decidableBAll (fun c : Char => InRanges plainRanges c.toNat) t

/-- **Plainly cased** — the characters, beside the ASCII capitals, whose capital form is a plain
word: the ASCII small letters, the sharp s, the dotless i, the long s and the ligatures. -/
def plainlyCased : List (Nat × Nat) :=
  [(0x61, 0x7a), (0xdf, 0xdf), (0x131, 0x131), (0x17f, 0x17f), (0xfb00, 0xfb06)]

theorem areApart_plain_letters : areApart plainRanges letterRanges = true := by decide +kernel

theorem areApart_capitals_plainlyCased : areApart capitalRanges plainlyCased = true := by
  decide +kernel

theorem plainlyCased_of_entry :
    ∀ entry ∈ caseExpansions, InRanges plainlyCased entry.1 ∨
      ∃ n ∈ entry.2, n.isValidChar ∧ ¬ InRanges plainRanges n := by
  decide +kernel

theorem plainlyCased_of_run :
    ∀ run ∈ caseRuns, (∃ range ∈ plainlyCased, range.1 ≤ run.first ∧ run.last ≤ range.2) ∨
      0x5a < run.capital := by
  decide +kernel

theorem upperChar_of_plain (h : InRanges plainRanges c.toNat) : upperChar c = [c] :=
  upperChar_eq_self (not_inRanges_of_areApart areApart_plain_letters h)

/-- The characters whose capital form is a plain word. -/
theorem plain_or_plainlyCased (h : IsPlainWord (upperChar c)) :
    InRanges plainRanges c.toNat ∨ InRanges plainlyCased c.toNat := by
  rcases upperChar_cases c with ⟨entry, hentry, hkey, heq⟩ | ⟨run, hrun, hholds, heq⟩ | heq
  · rcases plainlyCased_of_entry entry hentry with hcased | ⟨n, hn, hvalid, hnot⟩
    · exact .inr (hkey ▸ hcased)
    · -- a character of the form is no ASCII capital
      have hplain := h (Char.ofNat n) (by rw [heq]; exact List.mem_map.mpr ⟨n, hn, rfl⟩)
      rw [toNat_ofNat hvalid] at hplain
      exact absurd hplain hnot
  · rcases plainlyCased_of_run run hrun with ⟨range, hrange, hlow, hhigh⟩ | hbeyond
    · exact .inr ⟨range, hrange, Nat.le_trans hlow hholds.1, Nat.le_trans hholds.2 hhigh⟩
    · have hcapital := capital_of_run hrun hholds
      have hplain := h _ (heq ▸ List.mem_singleton.mpr rfl)
      rw [toNat_ofNat (isValidChar_of_capital hcapital)] at hplain
      obtain ⟨range, hrange, -, hhigh⟩ := hplain
      obtain rfl : range = (0x41, 0x5a) := List.mem_singleton.mp hrange
      exact absurd hhigh (Nat.not_le.mpr (Nat.lt_add_right _ hbeyond))
  · exact .inl (h c (heq ▸ List.mem_singleton.mpr rfl))

/-- What a capital form is made of is fixed by upper-casing, if that makes it a plain word. -/
theorem upperChar_eq_self_of_mem (hd : d ∈ upperChar c) (hplain : IsPlainWord (upperChar d)) :
    upperChar d = [d] := by
  rcases eq_singleton_or_capital c with heq | hcapital
  · rw [heq] at hd
    rw [List.mem_singleton.mp hd, heq]
  · rcases plain_or_plainlyCased hplain with hplain | hcased
    · exact upperChar_of_plain hplain
    · exact absurd hcased
        (not_inRanges_of_areApart areApart_capitals_plainlyCased (hcapital d hd))

theorem upper_eq_self (h : ∀ c ∈ t, upperChar c = [c]) : upper t = t := by
  induction t with
  | nil => rfl
  | cons c rest ih =>
    rw [upper, List.flatMap_cons, h c List.mem_cons_self]
    exact congrArg (c :: ·) (ih fun d hd => h d (List.mem_cons_of_mem c hd))

/-- **Upper-casing twice** makes a plain word of what upper-casing once makes it of. -/
theorem upper_upper_eq_iff {word : Text} (hword : IsPlainWord word) :
    upper (upper t) = word ↔ upper t = word := by
  constructor
  · intro h
    have hfixed : upper (upper t) = upper t := by
      refine upper_eq_self fun d hd => ?_
      obtain ⟨c, -, hc⟩ := List.mem_flatMap.mp hd
      refine upperChar_eq_self_of_mem hc fun e he => hword e ?_
      rw [← h]
      exact List.mem_flatMap.mpr ⟨d, hd, he⟩
    rw [← hfixed, h]
  · intro h
    rw [h]
    exact upper_eq_self fun c hc => upperChar_of_plain (hword c hc)

end LineShell.Text
