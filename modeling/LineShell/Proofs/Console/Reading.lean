/-
# LineShell.Proofs.Console.Reading -- reading loses and invents no line

A console is asked to read, to write and to complain, in any order. What the reads come to
depends on the reads alone: each takes the next line off the input, and what is asked in
between leaves the input alone. So the reads give the lines of the input in order, and nothing
once these are used up (`linesRead_eq`).

Whether there is a line is decided by what was taken off the input, and what is handed out is
that without the line ending. An empty line is therefore told apart from the end of the input:
it was taken off with its line feed. Of a line nothing goes but the carriage returns at its end
(`stripped_chomp`).
-/

import LineShell.Console
import LineShell.Proofs.Text.Pieces
import Mathlib.Data.List.Forall2

namespace LineShell
namespace Console

/-! ## Stripping -/

/-- **Stripped** — the line is what is left of a piece without the carriage returns at its
end. -/
def Stripped (piece line : Text) : Prop :=
  ∃ n, piece = line ++ List.replicate n '\r' ∧ line.getLast? ≠ some '\r'

/-- A piece of nothing but carriage returns leaves an empty line. -/
theorem Stripped.eq_nil {piece line : Text} (h : Stripped piece line)
    (hpiece : ∀ c ∈ piece, c = '\r') : line = [] := by
  obtain ⟨n, rfl, hlast⟩ := h
  rcases List.eq_nil_or_concat line with hnil | ⟨front, last, hline⟩
  · exact hnil
  · have hmem : last ∈ line := by simp [hline]
    have hreturn : last = '\r' := hpiece last (List.mem_append_left _ hmem)
    rw [hline, hreturn] at hlast
    simp at hlast

theorem Stripped.mem {piece line : Text} {c : Char} (h : Stripped piece line) (hc : c ∈ line) :
    c ∈ piece := by
  obtain ⟨n, rfl, -⟩ := h
  exact List.mem_append_left _ hc

/-- Chomping takes the carriage returns at the end of a text without line feeds. -/
theorem stripped_chomp {piece : Text} (h : '\n' ∉ piece) : Stripped piece (chomp piece) := by
  let isEnding : Char → Bool := fun c => c = '\r' || c = '\n'
  let ending := piece.reverse.takeWhile isEnding
  have hcut : piece = chomp piece ++ ending.reverse := by
    have hreverse : ending ++ piece.reverse.dropWhile isEnding = piece.reverse :=
      List.takeWhile_append_dropWhile
    have hpiece := congrArg List.reverse hreverse
    rw [List.reverse_append, List.reverse_reverse] at hpiece
    exact hpiece.symm
  have hending : ∀ c ∈ ending.reverse, c = '\r' := by
    intro c hc
    have htaken : isEnding c = true :=
      List.all_eq_true.mp List.all_takeWhile c (List.mem_reverse.mp hc)
    have hmem : c ∈ piece := hcut ▸ List.mem_append_right _ hc
    rcases Bool.or_eq_true_iff.mp htaken with hreturn | hfeed
    · exact of_decide_eq_true hreturn
    · exact absurd (of_decide_eq_true hfeed ▸ hmem) h
  refine ⟨ending.reverse.length, ?_, ?_⟩
  · rw [← List.eq_replicate_of_mem hending]
    exact hcut
  · -- the first character that is not dropped is no line ending
    intro hlast
    rw [chomp, List.getLast?_reverse] at hlast
    have hkept := List.head?_dropWhile_not isEnding piece.reverse
    rw [hlast] at hkept
    exact absurd hkept (by decide)

/-! ## Reading -/

/-- **Lines read** — what the reads among some requests come to, in order. -/
def linesRead (input : Text) (requests : List Request) : List (Option Text) :=
  ((requests.zip (serveAll input requests)).filter (·.1 = .readLine)).map (·.2.line)

theorem linesRead_readLine (input : Text) (rest : List Request) :
    linesRead input (.readLine :: rest) =
      (readLine input).1 :: linesRead (readLine input).2 rest := rfl

/-- Anything but a read leaves the input as it is. -/
theorem linesRead_cons_of_ne {request : Request} (h : request ≠ .readLine) (input : Text)
    (rest : List Request) : linesRead input (request :: rest) = linesRead input rest := by
  cases request with
  | readLine => exact absurd rfl h
  | printLine text => rfl
  | complain text => rfl
  | write text => rfl
  | exit code => rfl

/-- What is read of an input without lines, and what is left of it. -/
theorem readLine_of_inputLines_eq_nil {input : Text} (h : inputLines input = []) :
    readLine input = (none, input) := by
  have hempty : input = [] := by
    rcases Text.not_mem_or_cut input with hfeed | ⟨line, rest, hfeed, rfl⟩
    · by_cases hne : input = []
      · exact hne
      · simp [inputLines, Text.lines_of_not_mem hfeed hne] at h
    · simp [inputLines, Text.lines_append hfeed] at h
  subst hempty
  rfl

/-- What is read of an input with lines is the first of them, and the others are left. -/
theorem readLine_of_inputLines_eq_cons {input line : Text} {others : List Text}
    (h : inputLines input = line :: others) :
    (readLine input).1 = some line ∧ inputLines (readLine input).2 = others := by
  have hlines := inputLines_eq input
  rw [h] at hlines
  rcases hread : readLine input with ⟨_ | first, behind⟩
  · rw [hread] at hlines
    exact absurd hlines (List.cons_ne_nil _ _)
  · rw [hread] at hlines
    obtain ⟨hfirst, hothers⟩ := List.cons.inj hlines
    exact ⟨congrArg some hfirst.symm, hothers.symm⟩

/-- **The reads** give the lines of the input as far as these go, and then nothing. -/
theorem linesRead_eq (input : Text) (requests : List Request) :
    let reads := requests.count .readLine
    linesRead input requests = ((inputLines input).take reads).map some ++
      List.replicate (reads - (inputLines input).length) none := by
  induction requests generalizing input with
  | nil => simp [linesRead]
  | cons request rest ih =>
    dsimp only at ih ⊢
    by_cases hread : request = .readLine
    · subst hread
      rw [linesRead_readLine, List.count_cons_self]
      rcases hlines : inputLines input with _ | ⟨line, others⟩
      · rw [readLine_of_inputLines_eq_nil hlines, ih input, hlines]
        simp [List.replicate_succ]
      · obtain ⟨hfirst, hbehind⟩ := readLine_of_inputLines_eq_cons hlines
        rw [hfirst, ih, hbehind]
        simp [Nat.add_sub_add_right]
    · rw [linesRead_cons_of_ne hread, List.count_cons_of_ne hread]
      exact ih input

/-- The lines of an input are stripped of their carriage returns, one by one. -/
theorem forall₂_stripped_inputLines (input : Text) :
    List.Forall₂ Stripped (Text.lines input) (inputLines input) := by
  rw [inputLines, List.forall₂_map_right_iff, List.forall₂_same]
  intro piece hpiece
  exact stripped_chomp (Text.newline_not_mem_of_mem_lines hpiece)

/-- **Reading** — for every input and every sequence of requests. The input is cut at its line
feeds; an empty piece behind the last of them is left out. The reads give what is left of the
other pieces without the carriage returns at their ends, in order, and nothing once these are
used up. A piece that is empty or holds nothing but carriage returns gives an empty line. No
line holds a line feed, and there are as many as line feeds, and one more if the last is
unended. -/
theorem reads_every_line (input : Text) (requests : List Request) :
    let reads := requests.count .readLine
    ∃ pieces lines : List Text,
      ['\n'].intercalate (pieces ++ if input.IsUnended then [] else [[]]) = input ∧
      (∀ piece ∈ pieces, '\n' ∉ piece) ∧
      List.Forall₂ Stripped pieces lines ∧
      linesRead input requests =
        (lines.take reads).map some ++ List.replicate (reads - lines.length) none ∧
      (∀ (i : Nat) (piece : Text), pieces[i]? = some piece → (∀ c ∈ piece, c = '\r') →
        lines[i]? = some []) ∧
      (∀ line ∈ lines, '\n' ∉ line) ∧
      lines.length = input.count '\n' + if input.IsUnended then 1 else 0 := by
  intro reads
  have hstripped : ∀ piece ∈ Text.lines input, Stripped piece (chomp piece) :=
    fun piece hpiece => stripped_chomp (Text.newline_not_mem_of_mem_lines hpiece)
  refine ⟨Text.lines input, inputLines input, ?_, fun _ => Text.newline_not_mem_of_mem_lines,
    forall₂_stripped_inputLines input, linesRead_eq input requests, ?_, ?_, ?_⟩
  · rw [← Text.pieces_eq_lines_append]
    exact Text.intercalate_pieces '\n' input
  · intro i piece hpiece hreturns
    have hempty := (hstripped piece (List.mem_of_getElem? hpiece)).eq_nil hreturns
    rw [inputLines, List.getElem?_map, hpiece]
    exact congrArg some hempty
  · intro line hline hfeed
    obtain ⟨piece, hpiece, rfl⟩ := List.mem_map.mp hline
    exact Text.newline_not_mem_of_mem_lines hpiece ((hstripped piece hpiece).mem hfeed)
  · rw [inputLines, List.length_map, Text.length_lines]

/-- Line feeds, carriage returns in front of them and elsewhere, and more reads than lines. -/
example : linesRead "a\r\r\n\r\nb\rc\n\nd\r" [.readLine, .write "$ ", .readLine, .readLine,
    .printLine "x", .readLine, .readLine, .complain [], .readLine] =
      [some ↑"a", some [], some ↑"b\rc", some [], some ↑"d", none] := by decide

end Console
end LineShell
