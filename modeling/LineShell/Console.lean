/-
# LineShell.Console -- reading and writing lines

A console reads its input line by line and writes to two outputs. A line ends at a line
feed or with the input. What is handed out is the line without its line feed and
without the carriage returns before it; at the end of the input there is no line, which
is not the same as an empty one. Reading to the end gives the lines of the input, each
without the carriage returns at its end (`inputLines_eq`).
-/

import LineShell.Text.Basic

namespace LineShell
namespace Console

/-- A line without the carriage returns and line feeds at its end. -/
def chomp (line : Text) : Text :=
  (line.reverse.dropWhile fun c => c = '\r' || c = '\n').reverse

/-- The input up to and including the first line feed, and what is behind it. -/
def takeLine : Text → Text × Text
  | [] => ([], [])
  | c :: rest =>
    if c = '\n' then ([c], rest)
    else
      let (line, behind) := takeLine rest
      (c :: line, behind)

/-- **Reading a line** — the next line of the input, if any, and the input behind it. -/
def readLine (input : Text) : Option Text × Text :=
  match takeLine input with
  | ([], behind) => (none, behind)
  | (line, behind) => (some (chomp line), behind)

/-- **Request** — what can be asked of a console. -/
inductive Request
  | readLine
  | printLine (text : Text)
  | complain (text : Text)
  | write (text : Text)
  | exit (code : Int)
  deriving DecidableEq, Repr

/-- **Reply** — the line read or the code of an exit, and what was written to the two
outputs. -/
structure Reply where
  line : Option Text
  exitCode : Option Int
  output : Text
  errors : Text
  deriving DecidableEq, Repr

/-- One request, from the input that is left to the input that is then left. -/
def serve (input : Text) : Request → Reply × Text
  | .readLine =>
    let (line, behind) := readLine input
    (⟨line, none, [], []⟩, behind)
  | .printLine text => (⟨none, none, text ++ ['\n'], []⟩, input)
  | .complain text => (⟨none, none, [], text ++ ['\n']⟩, input)
  | .write text => (⟨none, none, text, []⟩, input)
  | .exit code => (⟨none, some code, [], []⟩, input)

/-- The replies to a sequence of requests. -/
def serveAll (input : Text) : List Request → List Reply
  | [] => []
  | request :: rest =>
    let (reply, behind) := serve input request
    reply :: serveAll behind rest

/-- All lines that can be read from an input, in order. -/
def inputLines (input : Text) : List Text := (Text.lines input).map chomp

/-! ## Reading to the end -/

theorem takeLine_of_not_mem {line : Text} (h : '\n' ∉ line) : takeLine line = (line, []) := by
  induction line with
  | nil => rfl
  | cons c rest ih =>
    have hc : c ≠ '\n' := fun e => h (by simp [e])
    simp [takeLine, hc, ih fun m => h (List.mem_cons_of_mem _ m)]

theorem takeLine_of_cut {line : Text} (h : '\n' ∉ line) (rest : Text) :
    takeLine (line ++ '\n' :: rest) = (line ++ ['\n'], rest) := by
  induction line with
  | nil => simp [takeLine]
  | cons c more ih =>
    have hc : c ≠ '\n' := fun e => h (by simp [e])
    simp [takeLine, hc, ih fun m => h (List.mem_cons_of_mem _ m)]

theorem chomp_append_newline (line : Text) : chomp (line ++ ['\n']) = chomp line := by
  simp [chomp]

/-- What is read of an input that has a line feed. -/
theorem readLine_of_cut {line : Text} (h : '\n' ∉ line) (rest : Text) :
    readLine (line ++ '\n' :: rest) = (some (chomp line), rest) := by
  simp only [readLine, takeLine_of_cut h]
  split
  · simp_all
  · rename_i taken behind _ e
    simp only [Prod.mk.injEq] at e
    rw [← e.1, ← e.2, chomp_append_newline]

/-- What is read of an input that has none. -/
theorem readLine_of_not_mem {line : Text} (h : '\n' ∉ line) (hne : line ≠ []) :
    readLine line = (some (chomp line), []) := by
  obtain ⟨c, rest, rfl⟩ := List.exists_cons_of_ne_nil hne
  rw [readLine, takeLine_of_not_mem h]

/-- The lines of an input are the one that is read and the lines of what is left. -/
theorem inputLines_eq (input : Text) :
    inputLines input = match readLine input with
      | (none, _) => []
      | (some line, behind) => line :: inputLines behind := by
  rcases Text.not_mem_or_cut input with h | ⟨line, rest, h, rfl⟩
  · by_cases hne : input = []
    · subst hne
      rfl
    · simp [readLine_of_not_mem h hne, inputLines, Text.lines_of_not_mem h hne, Text.lines]
  · simp [readLine_of_cut h, inputLines, Text.lines_append h]

end Console
end LineShell
