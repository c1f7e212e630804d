/-
# LineShell.Proofs.Console.Division -- which lines an input has

An input is divided into lines in one way (`divides_iff`). A line feed ends a line, and so
does a carriage return, which counts together with a line feed that follows it. What stands
behind the last line ending is a line if it is not empty.

Reading normalizes the line endings first and then takes what stands in front of each line
feed. That this comes to the same is an induction on the division: the part in front of a
line ending holds none, so it is left alone by both.
-/

import LineShell.Console

namespace LineShell
namespace Console

/-- **Line ending** — the characters that end a line. -/
inductive LineEnding
  | lineFeed
  | carriageReturn
  | both
  deriving DecidableEq, Repr

def LineEnding.written : LineEnding → Text
  | lineFeed => ['\n']
  | carriageReturn => ['\r']
  | both => ['\r', '\n']

/-- **Unbroken** — the text holds no character of a line ending. -/
def IsUnbroken (t : Text) : Prop := '\n' ∉ t ∧ '\r' ∉ t

/-- **Divides** — the lines of an input, in order. A carriage return is not taken apart from a
line feed behind it. -/
inductive Divides : Text → List Text → Prop
  | done : Divides [] []
  | last {line : Text} : IsUnbroken line → line ≠ [] → Divides line [line]
  | ended {line rest : Text} {lines : List Text} (ending : LineEnding) : IsUnbroken line →
      (ending = .carriageReturn → rest.head? ≠ some '\n') → Divides rest lines →
      Divides (line ++ (ending.written ++ rest)) (line :: lines)

/-- The characters of a line are characters of the input. -/
theorem Divides.mem_of_mem {input line : Text} {lines : List Text} {c : Char}
    (h : Divides input lines) (hline : line ∈ lines) (hc : c ∈ line) : c ∈ input := by
  induction h with
  | done => exact absurd hline (by simp)
  | last => exact List.mem_singleton.mp hline ▸ hc
  | ended ending _ _ _ ih =>
    rcases List.mem_cons.mp hline with rfl | hline
    · exact List.mem_append_left _ hc
    · exact List.mem_append_right _ (List.mem_append_right _ (ih hline))

/-! ## Unbroken texts -/

theorem isUnbroken_nil : IsUnbroken [] := by simp [IsUnbroken]

theorem IsUnbroken.cons {c : Char} {t : Text} (hfeed : c ≠ '\n') (hreturn : c ≠ '\r')
    (h : IsUnbroken t) : IsUnbroken (c :: t) :=
  ⟨by simp [h.1, Ne.symm hfeed], by simp [h.2, Ne.symm hreturn]⟩

/-- Chomping leaves an unbroken line alone. -/
theorem chomp_of_isUnbroken {line : Text} (h : IsUnbroken line) : chomp line = line := by
  rcases hback : line.reverse with _ | ⟨c, others⟩
  · rw [chomp, hback, List.reverse_eq_nil_iff.mp hback]
    rfl
  · have hmem : c ∈ line := List.mem_reverse.mp (by rw [hback]; exact List.mem_cons_self)
    have hreturn : c ≠ '\r' := fun hc => h.2 (hc ▸ hmem)
    have hfeed : c ≠ '\n' := fun hc => h.1 (hc ▸ hmem)
    rw [chomp, hback, List.dropWhile_cons_of_neg (by simp [hreturn, hfeed]), ← hback,
      List.reverse_reverse]

theorem plainNewlines_cons {c : Char} (hc : c ≠ '\r') (rest : Text) :
    Text.plainNewlines (c :: rest) = c :: Text.plainNewlines rest := by
  rw [Text.plainNewlines]
  · rw [if_neg hc]
  · exact fun _ h => absurd h hc

/-- Normalizing goes through an unbroken text. -/
theorem plainNewlines_append {line : Text} (h : IsUnbroken line) (rest : Text) :
    Text.plainNewlines (line ++ rest) = line ++ Text.plainNewlines rest := by
  induction line with
  | nil => rfl
  | cons c more ih =>
    have hc : c ≠ '\r' := fun hc => h.2 (hc ▸ List.mem_cons_self)
    have hmore : IsUnbroken more :=
      ⟨fun hm => h.1 (List.mem_cons_of_mem _ hm), fun hm => h.2 (List.mem_cons_of_mem _ hm)⟩
    rw [List.cons_append, plainNewlines_cons hc, ih hmore]
    rfl

/-- Every line ending comes to one line feed. -/
theorem plainNewlines_written {ending : LineEnding} {rest : Text}
    (h : ending = .carriageReturn → rest.head? ≠ some '\n') :
    Text.plainNewlines (ending.written ++ rest) = '\n' :: Text.plainNewlines rest := by
  cases ending with
  | lineFeed => exact plainNewlines_cons (by decide) rest
  | both => rfl
  | carriageReturn =>
    have hnext := h rfl
    change Text.plainNewlines ('\r' :: rest) = _
    rw [Text.plainNewlines]
    · rfl
    · rintro behind - rfl
      exact hnext rfl

/-! ## One division -/

theorem Divides.eq_inputLines {input : Text} {lines : List Text} (h : Divides input lines) :
    lines = inputLines (Text.plainNewlines input) := by
  induction h with
  | done => rfl
  | @last line hline hne =>
    have hplain : Text.plainNewlines line = line := by
      simpa [Text.plainNewlines] using plainNewlines_append hline []
    rw [hplain, inputLines, Text.lines_of_not_mem hline.1 hne]
    exact congrArg (· :: []) (chomp_of_isUnbroken hline).symm
  | @ended line rest lines ending hline hreturn _ ih =>
    rw [plainNewlines_append hline, plainNewlines_written hreturn, inputLines,
      Text.lines_append hline.1, List.map_cons, chomp_of_isUnbroken hline, ih, inputLines]

/-- An input is unbroken, or it is cut at its first line ending. -/
theorem isUnbroken_or_cut (input : Text) : IsUnbroken input ∨
    ∃ (line rest : Text) (ending : LineEnding), IsUnbroken line ∧
      (ending = .carriageReturn → rest.head? ≠ some '\n') ∧
      input = line ++ (ending.written ++ rest) := by
  induction input with
  | nil => exact .inl isUnbroken_nil
  | cons c more ih =>
    by_cases hfeed : c = '\n'
    · subst hfeed
      exact .inr ⟨[], more, .lineFeed, isUnbroken_nil, by simp, rfl⟩
    by_cases hreturn : c = '\r'
    · subst hreturn
      -- a line feed behind a carriage return belongs to it
      by_cases hnext : more.head? = some '\n'
      · obtain ⟨rest, rfl⟩ := List.head?_eq_some_iff.mp hnext
        exact .inr ⟨[], rest, .both, isUnbroken_nil, by simp, rfl⟩
      · exact .inr ⟨[], more, .carriageReturn, isUnbroken_nil, fun _ => hnext, rfl⟩
    rcases ih with h | ⟨line, rest, ending, h, hnext, rfl⟩
    · exact .inl (h.cons hfeed hreturn)
    · exact .inr ⟨c :: line, rest, ending, h.cons hfeed hreturn, hnext, rfl⟩

theorem exists_divides (input : Text) : ∃ lines, Divides input lines := by
  induction hn : input.length using Nat.strongRecOn generalizing input with
  | ind n ih =>
    subst hn
    rcases isUnbroken_or_cut input with h | ⟨line, rest, ending, h, hnext, rfl⟩
    · by_cases hne : input = []
      · subst hne
        exact ⟨[], .done⟩
      · exact ⟨[input], .last h hne⟩
    · have hshorter : rest.length < (line ++ (ending.written ++ rest)).length := by
        cases ending <;> simp [LineEnding.written] <;> omega
      obtain ⟨lines, hlines⟩ := ih _ hshorter rest rfl
      exact ⟨line :: lines, .ended ending h hnext hlines⟩

/-- **The lines of an input** are those that are read from it once its line endings are
normalized. -/
theorem divides_iff {input : Text} {lines : List Text} :
    Divides input lines ↔ lines = inputLines (Text.plainNewlines input) := by
  constructor
  · exact Divides.eq_inputLines
  · rintro rfl
    obtain ⟨lines, h⟩ := exists_divides input
    rwa [← h.eq_inputLines]

end Console
end LineShell
