/-
# LineShell.Proofs.Settings.LevelName -- a level has the same names everywhere

A level can be named directly, and it can be named by the variable that the settings are loaded
from. What is named directly is trimmed and put into upper case. What the variable says is put into
upper case when it is loaded, and is then trimmed and put into upper case like any other name when
it is put in force. The first upper-casing makes no difference (`Level.ofName?_upper`), for any
text whatever, so that both ways accept the same names (`Control.reload_follows_chooseLevel`).

They differ in what they do about a name that is no level. Named directly, it is refused. In the
variable, it stands for `error`, and one line on the errors says so: quoting leaves no line feed in
it (`Text.newline_not_mem_quoted`).
-/

import LineShell.Settings
import LineShell.Proofs.Text.UpperCase

namespace LineShell

/-! ## Names -/

namespace Level

theorem isPlainWord_name (level : Level) : Text.IsPlainWord level.name := by
  cases level <;> decide

/-- **The names of a level** — a text that is put into upper case beforehand names the same
level, or none as before. -/
theorem ofName?_upper (t : Text) : ofName? (Text.upper t) = ofName? t := by
  have hname : ∀ level : Level, level.name = Text.upper (Text.trim (Text.upper t)) ↔
      level.name = Text.upper (Text.trim t) := by
    intro level
    rw [Text.trim_upper, eq_comm, Text.upper_upper_eq_iff level.isPlainWord_name, eq_comm]
  simp only [ofName?, hname]

/-- **Named** — the text is the name of the level, but for case and for white space around
it. -/
def IsNamed (level : Level) (text : Text) : Prop := Text.upper (Text.trim text) = level.name

theorem name_inj {first second : Level} (h : first.name = second.name) : first = second := by
  have hall : ∀ a ∈ all, ∀ b ∈ all, a.name = b.name → a = b := by decide
  exact hall first (mem_all first) second (mem_all second) h

/-- The name of a level that is found is the text. -/
theorem isNamed_of_ofName? {text : Text} {level : Level} (h : ofName? text = some level) :
    level.IsNamed text := by
  rw [ofName?] at h
  have hname := List.find?_some h
  exact (of_decide_eq_true hname).symm

theorem ofName?_eq_some_iff {text : Text} {level : Level} :
    ofName? text = some level ↔ level.IsNamed text := by
  refine ⟨isNamed_of_ofName?, fun h => ?_⟩
  rcases hfound : ofName? text with _ | other
  · have hnone := List.find?_eq_none.mp hfound level (mem_all level)
    exact absurd (decide_eq_true h.symm) hnone
  · have hother : other.IsNamed text := isNamed_of_ofName? hfound
    rw [name_inj (hother.symm.trans h)]

theorem ofName?_eq_none_iff {text : Text} :
    ofName? text = none ↔ ∀ level : Level, ¬ level.IsNamed text := by
  rw [Option.eq_none_iff_forall_ne_some]
  exact forall_congr' fun level => not_congr ofName?_eq_some_iff

end Level

/-! ## Quoting leaves no line feed -/

namespace Text

theorem newline_not_mem_hex (width n : Nat) : '\n' ∉ hex width n := by
  have hdigit : ∀ k < 16, Nat.digitChar k ≠ '\n' := by decide
  induction width generalizing n with
  | zero => exact List.not_mem_nil
  | succ width ih =>
    rw [hex, List.mem_append, List.mem_singleton, not_or]
    exact ⟨ih _, (hdigit _ (Nat.mod_lt n (by decide))).symm⟩

theorem newline_not_mem_codePointEscape (c : Char) : '\n' ∉ codePointEscape c := by
  have hescape : ∀ (mark : Text) (width : Nat), '\n' ∉ mark → '\n' ∉ mark ++ hex width c.toNat := by
    intro mark width hmark hmem
    exact (List.mem_append.mp hmem).elim hmark (newline_not_mem_hex width c.toNat)
  unfold codePointEscape
  split
  · exact hescape _ 2 (by decide)
  · split
    · exact hescape _ 4 (by decide)
    · exact hescape _ 8 (by decide)

theorem newline_not_mem_quotedChar {mark : Char} (hmark : mark ≠ '\n') (c : Char) :
    '\n' ∉ quotedChar mark c := by
  by_cases hc : c = '\n'
  · -- the line feed has a short escape
    subst hc
    have hshort : quotedChar mark '\n' = "\\n" := by
      simp [quotedChar, hmark.symm]
    rw [hshort]
    decide
  · have hne : '\n' ≠ c := Ne.symm hc
    unfold quotedChar
    rw [if_neg hc]
    split
    · simp [hne]
    split
    · decide
    split
    · decide
    split
    · simp [hne]
    · exact newline_not_mem_codePointEscape c

theorem newline_not_mem_quoted (t : Text) : '\n' ∉ quoted t := by
  have hmark : quotationMark t ≠ '\n' := by
    rcases quotationMark_mem t with h | h <;> rw [h] <;> decide
  intro hmem
  rcases List.mem_append.mp hmem with hmem | hmem
  · rcases List.mem_cons.mp hmem with heq | hmem
    · exact hmark heq.symm
    · obtain ⟨c, -, hc⟩ := List.mem_flatMap.mp hmem
      exact newline_not_mem_quotedChar hmark c hc
  · exact hmark (List.mem_singleton.mp hmem).symm

end Text

/-! ## The two ways side by side -/

/-- What is said about settings that name no level. -/
def Settings.complaint (settings : Settings) : Text :=
  programName ++ ": ignoring invalid " ++ levelVariable ++ "=" ++ Text.quoted settings.levelName ++
    ", using ERROR"

theorem Settings.newline_not_mem_complaint (settings : Settings) : '\n' ∉ settings.complaint := by
  simp only [complaint, List.mem_append, not_or]
  exact ⟨⟨⟨⟨⟨by decide, by decide⟩, by decide⟩, by decide⟩, Text.newline_not_mem_quoted _⟩, by decide⟩

theorem Settings.level_of_some {settings : Settings} {level : Level}
    (h : Level.ofName? settings.levelName = some level) : settings.level = (level, []) := by
  rw [Settings.level, h]

theorem Settings.level_of_none {settings : Settings}
    (h : Level.ofName? settings.levelName = none) :
    settings.level = (.error, [⟨.error, settings.complaint⟩]) := by
  rw [Settings.level, h]
  rfl

namespace Control

/-- The control with a text as the value of the level variable. -/
def withLevelName (c : Control) (name : Text) : Control :=
  { c with environment := c.environment.withValue levelVariable name }

/-- A text without NUL can be made the value of the level variable. -/
theorem perform_setVariable_level {name : Text} (h : '\x00' ∉ name) (c : Control) :
    c.perform (.setVariable levelVariable name) = ⟨c.withLevelName name, .nothing, [], []⟩ := by
  have hname : name.contains '\x00' = false := by
    rwa [← Bool.not_eq_true, List.contains_iff_mem]
  have hfault : variableFault levelVariable name = none := by
    rw [variableFault, hname]
    decide
  simp only [perform, hfault, withLevelName]

theorem levelName_ofVariables (c : Control) (name : Text) :
    (Settings.ofVariables (c.withLevelName name).environment).levelName = Text.upper name := by
  simp [Settings.ofVariables, withLevelName, Environment.value?_withValue]

/-- Loading the settings, by the level that they ask for. -/
theorem perform_reload {c : Control} {level : Level} {messages : List Message}
    (h : (Settings.ofVariables c.environment).level = (level, messages)) :
    c.perform .reload =
      ⟨⟨c.environment, Settings.ofVariables c.environment, level⟩,
        .settings (Settings.ofVariables c.environment), [],
        messages.flatMap (Message.printed level)⟩ := by
  simp only [perform, reloaded, applied, printed, h]

/-- Loading a variable that names a level puts that level in force and prints nothing. -/
theorem perform_reload_of_some {name : Text} {level : Level} (h : Level.ofName? name = some level)
    (c : Control) :
    let reloaded := (c.withLevelName name).perform .reload
    reloaded.control.level = level ∧ reloaded.output = [] ∧ reloaded.errors = [] := by
  have hname : Level.ofName? (Settings.ofVariables (c.withLevelName name).environment).levelName =
      some level := by
    rw [levelName_ofVariables c name, Level.ofName?_upper, h]
  dsimp only
  rw [perform_reload (Settings.level_of_some hname)]
  exact ⟨rfl, rfl, rfl⟩

/-- Loading a variable that names none puts `error` in force and prints one line. -/
theorem perform_reload_of_none {name : Text} (h : Level.ofName? name = none) (c : Control) :
    let reloaded := (c.withLevelName name).perform .reload
    reloaded.control.level = .error ∧ reloaded.output = [] ∧
      ∃ line, '\n' ∉ line ∧ reloaded.errors = line ++ ['\n'] := by
  have hlevel := Settings.level_of_none
    (by rw [levelName_ofVariables c name, Level.ofName?_upper, h])
  dsimp only
  rw [perform_reload hlevel]
  exact ⟨rfl, rfl, _, Settings.newline_not_mem_complaint _, List.append_nil _⟩

/-- **One answer to a name** — for every text without NUL, whatever is in force. If naming it
directly puts a level in force, then so does making it the value of the level variable and loading
the settings, and nothing is printed. If it is refused, which changes nothing, then loading puts
`error` in force and prints exactly one line. -/
theorem reload_follows_chooseLevel {name : Text} (h : '\x00' ∉ name) (c d : Control) :
    let chosen := c.perform (.chooseLevel name)
    let set := d.perform (.setVariable levelVariable name)
    let reloaded := set.control.perform .reload
    set.answer = .nothing ∧
    Level.ofName? (Text.upper name) = Level.ofName? name ∧
    ((∃ level, chosen = ⟨{ c with level := level }, .nothing, [], []⟩ ∧
        reloaded.control.level = level ∧ reloaded.output = [] ∧ reloaded.errors = []) ∨
      (chosen = ⟨c, .refused (.invalidLevel name), [], []⟩ ∧
        reloaded.control.level = .error ∧ reloaded.output = [] ∧
        ∃ line, '\n' ∉ line ∧ reloaded.errors = line ++ ['\n'])) := by
  dsimp only
  rw [perform_setVariable_level h d]
  refine ⟨rfl, Level.ofName?_upper name, ?_⟩
  rcases hname : Level.ofName? name with _ | level
  · refine .inr ⟨?_, perform_reload_of_none hname d⟩
    simp only [perform, hname]
  · refine .inl ⟨level, ?_, perform_reload_of_some hname d⟩
    simp only [perform, hname]

/-- A name with a dotless i, between two kinds of white space. -/
theorem reload_follows_chooseLevel_dotless :
    let name : Text := "\u3000\u0131nfo\u001f"
    let c : Control := { initial with level := .quiet }
    let reloaded := (c.perform (.setVariable levelVariable name)).control.perform .reload
    '\x00' ∉ name ∧ (c.perform (.chooseLevel name)).control.level = .info ∧
      reloaded.control.level = .info ∧ reloaded.errors = [] := by
  intro name c reloaded
  have h : '\x00' ∉ name := by decide
  have hinfo : (c.perform (.chooseLevel name)).control.level = .info := by decide +kernel
  refine ⟨h, hinfo, ?_⟩
  obtain ⟨-, -, ⟨level, hchosen, hlevel, -, herrors⟩ | ⟨hchosen, -⟩⟩ :=
    reload_follows_chooseLevel h c c
  · rw [hchosen] at hinfo
    exact ⟨hlevel.trans hinfo, herrors⟩
  · rw [hchosen] at hinfo
    exact absurd hinfo (by decide)

end Control
end LineShell
