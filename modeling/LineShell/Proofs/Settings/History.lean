/-
# LineShell.Proofs.Settings.History -- what a history of operations has left in force

The control keeps three things apart: the variables, the settings as they were last loaded, and
the level in force. They may disagree, and what each of them is follows from the history alone:

* a variable has the value that was last given to it, unless it was taken away since;
* the settings are those of the variables at the last reload;
* the level is the one that was last put in force, by naming it or by the settings of that time.

An operation that does not bear on one of the three leaves it alone, so only the last one that
does counts (`after_eq_of_last`). A refused operation bears on nothing. What an operation answers
is told by the control at that moment; where the level in force and the one that the settings name
differ, it is the level in force that decides which messages are printed and that is reported
(`run_follows`).
-/

import LineShell.Proofs.Settings.LevelName
import LineShell.Proofs.Text.Pieces

namespace LineShell

/-- The level that settings ask for: the one that they name, or `error`. -/
theorem Settings.level_fst (settings : Settings) :
    settings.level.1 = (Level.ofName? settings.levelName).getD .error := by
  unfold Settings.level
  cases Level.ofName? settings.levelName <;> rfl

/-- **Read from** — the settings are what two variables ask for, each by its value if it has
one: the first names the level, the second is the prompt. -/
structure Settings.IsReadFrom (settings : Settings) (level prompt : Option Text) : Prop where
  levelName_set {name : Text} : level = some name → settings.levelName = Text.upper name
  levelName_unset : level = none → settings.levelName = "ERROR"
  prompt_set {text : Text} : prompt = some text → text ≠ [] → settings.prompt = text
  prompt_unset : prompt = none ∨ prompt = some [] → settings.prompt = "$ "

/-- Loading reads the settings from the two variables, and nothing else is read from them. -/
theorem Settings.isReadFrom_iff {settings : Settings} {environment : Environment} :
    settings.IsReadFrom (environment.value? levelVariable) (environment.value? promptVariable) ↔
      settings = ofVariables environment := by
  obtain ⟨levelName, prompt⟩ := settings
  rw [ofVariables, Settings.mk.injEq]
  constructor
  · intro h
    constructor
    · rcases hlevel : environment.value? levelVariable with _ | name
      · exact h.levelName_unset hlevel
      · exact h.levelName_set hlevel
    · split
      · rename_i hprompt
        exact h.prompt_unset (.inl hprompt)
      · rename_i hprompt
        exact h.prompt_unset (.inr hprompt)
      · rename_i text hne hprompt
        exact h.prompt_set hprompt hne
  · rintro ⟨rfl, rfl⟩
    refine ⟨fun h => ?_, fun h => ?_, fun h hne => ?_, fun h => ?_⟩
    · rw [h, Option.getD_some]
    · rw [h]
      rfl
    · rw [h]
      dsimp only
      split
      · exact absurd ‹_› (by simp)
      · exact absurd (Option.some.inj ‹_›) hne
      · exact (Option.some.inj ‹_›).symm
    · rcases h with h | h <;> rw [h] <;> rfl

namespace Control

/-! ## Operations that bear on something -/

namespace Operation

/-- The system takes a variable of this name and value. -/
def IsAccepted (name value : Text) : Prop :=
  name ≠ [] ∧ '=' ∉ name ∧ '\x00' ∉ name ∧ '\x00' ∉ value

/-- **Writes** — the operation sets the variable, or takes it away. -/
def Writes (name : Text) : Operation → Prop
  | setVariable other value => other = name ∧ IsAccepted name value
  | unsetVariable other => other = name
  | _ => False

/-- **Puts in force** — the operation puts a level in force: the one that the settings name, or
one that it names itself. -/
def PutsInForce : Operation → Prop
  | reload | applyLevel => True
  | chooseLevel name => ∃ level : Level, level.IsNamed name
  | _ => False

end Operation

theorem variableFault_eq_none_iff {name value : Text} :
    variableFault name value = none ↔ Operation.IsAccepted name value := by
  simp only [variableFault, Operation.IsAccepted, List.contains_iff_mem]
  split
  · rename_i h
    exact iff_of_false (by simp) fun haccepted => h.elim haccepted.2.2.1 haccepted.2.2.2
  split
  · rename_i h
    exact iff_of_false (by simp) fun haccepted => haccepted.2.1 h
  split
  · rename_i h
    exact iff_of_false (by simp) fun haccepted => haccepted.1 h
  · rename_i hnul hequals hempty
    rw [not_or] at hnul
    exact iff_of_true rfl ⟨hempty, hequals, hnul.1, hnul.2⟩

section Perform

variable (c : Control) {name value : Text} {operation : Operation}

theorem perform_setVariable (h : Operation.IsAccepted name value) :
    c.perform (.setVariable name value) =
      ⟨{ c with environment := c.environment.withValue name value }, .nothing, [], []⟩ := by
  simp only [perform, variableFault_eq_none_iff.mpr h]

theorem perform_setVariable_refused (h : ¬ Operation.IsAccepted name value) :
    (c.perform (.setVariable name value)).control = c := by
  rcases hfault : variableFault name value with _ | fault
  · exact absurd (variableFault_eq_none_iff.mp hfault) h
  · simp only [perform, hfault]

theorem perform_chooseLevel {level : Level} (h : level.IsNamed name) :
    c.perform (.chooseLevel name) = ⟨{ c with level := level }, .nothing, [], []⟩ := by
  simp only [perform, Level.ofName?_eq_some_iff.mpr h]

theorem perform_chooseLevel_refused (h : ∀ level : Level, ¬ level.IsNamed name) :
    c.perform (.chooseLevel name) = ⟨c, .refused (.invalidLevel name), [], []⟩ := by
  simp only [perform, Level.ofName?_eq_none_iff.mpr h]

/-- What loading or applying the settings leaves in force. -/
theorem level_perform_of_loading (h : operation = .reload ∨ operation = .applyLevel) :
    let after := (c.perform operation).control
    after.level = (Level.ofName? after.settings.levelName).getD .error := by
  rcases h with rfl | rfl
  · exact Settings.level_fst _
  · exact Settings.level_fst _

end Perform

/-! ## What bears on what -/

/-- **Governs** — no operations but those with a property bear on a field of the control. -/
def Governs (P : Operation → Prop) {α : Type} (field : Control → α) : Prop :=
  ∀ (c : Control) (operation : Operation), ¬ P operation →
    field (c.perform operation).control = field c

/-- Only reloading bears on the settings. -/
theorem governs_settings : Governs (· = .reload) settings := by
  intro c operation h
  cases operation with
  | reload => exact absurd rfl h
  | setVariable name value =>
    simp only [perform]
    split <;> rfl
  | chooseLevel name =>
    simp only [perform]
    split <;> rfl
  | _ => rfl

theorem governs_level : Governs Operation.PutsInForce level := by
  intro c operation h
  cases operation with
  | reload => exact absurd trivial h
  | applyLevel => exact absurd trivial h
  | setVariable name value =>
    simp only [perform]
    split <;> rfl
  | chooseLevel name =>
    rw [perform_chooseLevel_refused c fun level hlevel => h ⟨level, hlevel⟩]
  | _ => rfl

theorem governs_value? (name : Text) :
    Governs (Operation.Writes name) fun c => c.environment.value? name := by
  intro c operation h
  dsimp only
  cases operation with
  | setVariable other value =>
    by_cases haccepted : Operation.IsAccepted other value
    · have hne : name ≠ other := by
        rintro rfl
        exact h ⟨rfl, haccepted⟩
      rw [perform_setVariable c haccepted, Environment.value?_withValue, if_neg hne]
    · rw [perform_setVariable_refused c haccepted]
  | unsetVariable other =>
    have hne : name ≠ other := fun heq => h heq.symm
    show (c.environment.without other).value? name = _
    rw [Environment.value?_without, if_neg hne]
  | chooseLevel name =>
    simp only [perform]
    split <;> rfl
  | _ => rfl

/-! ## Histories -/

/-- The effects of operations in turn. -/
def run (c : Control) : List Operation → List Effect
  | [] => []
  | operation :: rest => c.perform operation :: (c.perform operation).control.run rest

/-- The control after operations in turn. -/
def after (c : Control) (history : List Operation) : Control :=
  history.foldl (fun c operation => (c.perform operation).control) c

theorem after_append (c : Control) (first second : List Operation) :
    c.after (first ++ second) = (c.after first).after second := List.foldl_append

theorem run_append (c : Control) (first second : List Operation) :
    c.run (first ++ second) = c.run first ++ (c.after first).run second := by
  induction first generalizing c with
  | nil => rfl
  | cons operation rest ih => exact congrArg (_ :: ·) (ih _)

/-- **Last** — the operation is the last one of a history that has a property. -/
def IsLast (P : Operation → Prop) (history before : List Operation) (operation : Operation) :
    Prop :=
  ∃ behind, history = before ++ operation :: behind ∧ P operation ∧ ∀ other ∈ behind, ¬ P other

section Governs

variable {α : Type} {field : Control → α} {P : Operation → Prop} (hgoverns : Governs P field)
include hgoverns

/-- Operations that do not bear on a field leave it alone. -/
theorem Governs.after_eq_of_none {history : List Operation} (h : ∀ other ∈ history, ¬ P other)
    (c : Control) : field (c.after history) = field c := by
  induction history generalizing c with
  | nil => rfl
  | cons operation rest ih =>
    rw [List.forall_mem_cons] at h
    exact (ih h.2 _).trans (hgoverns c operation h.1)

/-- What the last operation that bears on a field makes of it, stays. -/
theorem Governs.after_eq_of_last {history before : List Operation} {operation : Operation}
    (h : IsLast P history before operation) (c : Control) :
    field (c.after history) = field ((c.after before).perform operation).control := by
  obtain ⟨behind, rfl, -, hbehind⟩ := h
  rw [after_append]
  exact hgoverns.after_eq_of_none hbehind _

end Governs

/-- **Follows** — the control is what a history has left in force, beginning with no variables
at all. -/
structure Follows (history : List Operation) (c : Control) : Prop where
  variable_set {name value : Text} {before : List Operation} :
    IsLast (Operation.Writes name) history before (.setVariable name value) →
    c.environment.value? name = some value
  variable_unset {name : Text} {before : List Operation} :
    IsLast (Operation.Writes name) history before (.unsetVariable name) →
    c.environment.value? name = none
  variable_untouched {name : Text} :
    (∀ other ∈ history, ¬ other.Writes name) → c.environment.value? name = none
  /-- The settings are those of the variables at the last reload (`Settings.isReadFrom_iff` says
  which). -/
  settings_loaded {before : List Operation} :
    IsLast (· = .reload) history before .reload →
    c.settings = Settings.ofVariables (initial.after before).environment
  settings_untouched : .reload ∉ history → c.settings = Settings.ofVariables []
  level_chosen {name : Text} {before : List Operation} {level : Level} :
    IsLast Operation.PutsInForce history before (.chooseLevel name) → level.IsNamed name →
    c.level = level
  /-- The level is the one that the settings name. -/
  level_named {before : List Operation} {operation : Operation} {level : Level} :
    IsLast Operation.PutsInForce history before operation →
    operation = .reload ∨ operation = .applyLevel → level.IsNamed c.settings.levelName →
    c.level = level
  level_unnamed {before : List Operation} {operation : Operation} :
    IsLast Operation.PutsInForce history before operation →
    operation = .reload ∨ operation = .applyLevel →
    (∀ level : Level, ¬ level.IsNamed c.settings.levelName) → c.level = .error
  level_untouched : (∀ other ∈ history, ¬ other.PutsInForce) → c.level = .error

/-- Behind the last operation that puts a level in force there is no reload. -/
theorem settings_after_of_isLast {history before : List Operation} {operation : Operation}
    (h : IsLast Operation.PutsInForce history before operation) (c : Control) :
    (c.after history).settings = ((c.after before).perform operation).control.settings := by
  obtain ⟨behind, rfl, -, hbehind⟩ := h
  rw [after_append]
  have hkept : ∀ other ∈ behind, other ≠ .reload := by
    rintro other hother rfl
    exact hbehind _ hother trivial
  exact governs_settings.after_eq_of_none hkept _

/-- **A history** decides what is in force. -/
theorem follows_after (history : List Operation) : (initial.after history).Follows history where
  variable_set {name value before} h := by
    have haccepted : Operation.IsAccepted name value := h.choose_spec.2.1.2
    rw [(governs_value? name).after_eq_of_last h, perform_setVariable _ haccepted,
      Environment.value?_withValue, if_pos rfl]
  variable_unset {name before} h := by
    rw [(governs_value? name).after_eq_of_last h]
    show ((initial.after before).environment.without name).value? name = none
    rw [Environment.value?_without, if_pos rfl]
  variable_untouched {name} h := (governs_value? name).after_eq_of_none h _
  settings_loaded h := governs_settings.after_eq_of_last h _
  settings_untouched h :=
    governs_settings.after_eq_of_none (fun _ hother heq => h (heq ▸ hother)) _
  level_chosen h hname := by
    rw [governs_level.after_eq_of_last h, perform_chooseLevel _ hname]
  level_named h hloading hname := by
    rw [settings_after_of_isLast h] at hname
    rw [governs_level.after_eq_of_last h, level_perform_of_loading _ hloading,
      Level.ofName?_eq_some_iff.mpr hname]
    rfl
  level_unnamed h hloading hname := by
    rw [settings_after_of_isLast h] at hname
    rw [governs_level.after_eq_of_last h, level_perform_of_loading _ hloading,
      Level.ofName?_eq_none_iff.mpr hname]
    rfl
  level_untouched h := governs_level.after_eq_of_none h _

/-- **At the last reload** the settings were read from the values that the two variables had
then, which follow from the operations before it. -/
theorem Follows.isReadFrom {history before : List Operation} {c : Control} (h : c.Follows history)
    (hlast : IsLast (· = .reload) history before .reload) :
    let past := initial.after before
    past.Follows before ∧ c.settings.IsReadFrom (past.environment.value? levelVariable)
      (past.environment.value? promptVariable) :=
  ⟨follows_after before, Settings.isReadFrom_iff.mpr (h.settings_loaded hlast)⟩

/-- Variables, settings and level, each as another operation left it. -/
example :
    let c := initial.after [.setVariable levelVariable "debug", .reload,
      .setVariable levelVariable "info", .chooseLevel " warning", .chooseLevel "loud"]
    (c.environment.value? levelVariable, c.settings.levelName, c.level) =
      (some ↑"info", ↑"DEBUG", .warning) := by
  decide

/-! ## What is reported -/

/-- The line of the configuration page that is about the level. -/
def levelLine (level : Level) : Text := "  " ++ levelVariable ++ " = " ++ level.name

theorem lines_printedLines {lines : List Text} (h : ∀ line ∈ lines, '\n' ∉ line) :
    Text.lines (printedLines lines) = lines := by
  induction lines with
  | nil => rfl
  | cons line rest ih =>
    rw [List.forall_mem_cons] at h
    rw [printedLines, List.flatMap_cons, List.append_assoc]
    show Text.lines (line ++ '\n' :: printedLines rest) = line :: rest
    rw [Text.lines_append h.1, ih h.2]

section Page

variable (level : Level) (prompt : Text)

/-- Quoting keeps the prompt on one line, and so every line of the page is one. -/
theorem lines_printedLines_page :
    Text.lines (printedLines (Summary.page ⟨version, level, prompt⟩)) =
      Summary.page ⟨version, level, prompt⟩ := by
  have hname : '\n' ∉ level.name := by cases level <;> decide
  have hprompt := Text.newline_not_mem_quoted prompt
  apply lines_printedLines
  simp only [Summary.page, List.forall_mem_cons, List.mem_append, not_or]
  exact ⟨by decide, by decide, by decide, ⟨by decide, by decide⟩, by decide, by decide,
    ⟨⟨⟨by decide, by decide⟩, by decide⟩, hname⟩, by decide, by decide,
    ⟨⟨⟨by decide, by decide⟩, by decide⟩, hprompt⟩, by decide, by decide, by decide,
    ⟨⟨by decide, by decide⟩, by decide⟩, by decide, by simp⟩

/-- The lines of the page that are the same at every level and with every prompt. -/
def fixedLines : List Text :=
  (Summary.page ⟨version, .error, []⟩).eraseIdx 6 |>.eraseIdx 8

/-- The page shows one level. -/
theorem levelLine_mem_page_iff {other : Level} :
    levelLine other ∈ Summary.page ⟨version, level, prompt⟩ ↔ other = level := by
  have hfixed : ∀ other ∈ Level.all, levelLine other ∉ fixedLines := by decide
  replace hfixed := hfixed other (Level.mem_all other)
  have hprompt : levelLine other ≠ "  " ++ promptVariable ++ " = " ++ Text.quoted prompt := by
    intro h
    -- behind what the names of the two variables have in common
    have hletter : (levelLine other)[9]? = some 'P' := by
      rw [h]
      rfl
    cases other <;> exact absurd hletter (by decide)
  have hpage : Summary.page ⟨version, level, prompt⟩ =
      fixedLines.take 6 ++ levelLine level :: ((fixedLines.drop 6).take 2 ++
        ("  " ++ promptVariable ++ " = " ++ Text.quoted prompt) :: fixedLines.drop 8) := rfl
  rw [hpage, List.mem_append, List.mem_cons, List.mem_append, List.mem_cons]
  constructor
  · rintro (h | h | h | h | h)
    · exact absurd (List.mem_of_mem_take h) hfixed
    · exact Level.name_inj (List.append_cancel_left h)
    · exact absurd (List.mem_of_mem_drop (List.mem_of_mem_take h)) hfixed
    · exact absurd h hprompt
    · exact absurd (List.mem_of_mem_drop h) hfixed
  · rintro rfl
    exact .inr (.inl rfl)

end Page

/-- **Reports** — an operation answers by what is in force at that moment. -/
structure Reports (c : Control) (operation : Operation) (effect : Effect) : Prop where
  /-- A name of no level is refused, and nothing changes. -/
  refused {name : Text} : operation = .chooseLevel name →
    (∀ level : Level, ¬ level.IsNamed name) → effect = ⟨c, .refused (.invalidLevel name), [], []⟩
  /-- A message is printed exactly if it is no more verbose than the level in force. -/
  logged {m : Message} : operation = .log m → effect =
    ⟨c, .nothing, [], if m.level.verbosity ≤ c.level.verbosity then m.line else []⟩
  admitted {level : Level} : operation = .admits level →
    effect = ⟨c, .flag (level.verbosity ≤ c.level.verbosity), [], []⟩
  summarized : operation = .summarize →
    effect = ⟨c, .summary ⟨version, c.level, c.settings.prompt⟩, [], []⟩
  /-- The page shows the level in force, and no other. -/
  shown : operation = .printPage →
    effect = ⟨c, .nothing, printedLines (Summary.page ⟨version, c.level, c.settings.prompt⟩), []⟩ ∧
      ∀ level, levelLine level ∈ Text.lines effect.output ↔ level = c.level
  /-- What the variables ask for is looked at without being loaded. -/
  looked : operation = .readSettings →
    effect = ⟨c, .settings (Settings.ofVariables c.environment), [], []⟩
  /-- Settings that name no level are complained about when they are put in force. -/
  loaded : operation = .reload ∨ operation = .applyLevel → effect.output = [] ∧
    (effect.errors = [] ∧ (∃ level : Level, level.IsNamed effect.control.settings.levelName) ∨
      effect.errors = effect.control.settings.complaint ++ ['\n'] ∧
        ∀ level : Level, ¬ level.IsNamed effect.control.settings.levelName)

/-- What putting the settings in force prints. -/
theorem errors_applied (c : Control) :
    let errors := c.applied.printed c.settings.level.2
    errors = [] ∧ (∃ level : Level, level.IsNamed c.settings.levelName) ∨
      errors = c.settings.complaint ++ ['\n'] ∧
        ∀ level : Level, ¬ level.IsNamed c.settings.levelName := by
  intro errors
  rcases hnamed : Level.ofName? c.settings.levelName with _ | level
  · have hlevel := Settings.level_of_none hnamed
    refine .inr ⟨?_, Level.ofName?_eq_none_iff.mp hnamed⟩
    show Control.printed { c with level := c.settings.level.1 } c.settings.level.2 = _
    rw [hlevel]
    exact List.append_nil _
  · have hlevel := Settings.level_of_some hnamed
    refine .inl ⟨?_, level, Level.ofName?_eq_some_iff.mp hnamed⟩
    show Control.printed _ c.settings.level.2 = []
    rw [hlevel]
    rfl

theorem reports_perform (c : Control) (operation : Operation) :
    c.Reports operation (c.perform operation) where
  refused := by
    rintro name rfl hname
    exact perform_chooseLevel_refused c hname
  logged := by
    rintro m rfl
    simp [perform, printed, Message.printed, Level.admits]
  admitted := by
    rintro level rfl
    rfl
  summarized := by
    rintro rfl
    rfl
  shown := by
    rintro rfl
    refine ⟨rfl, fun level => ?_⟩
    show levelLine level ∈ Text.lines (printedLines (Summary.page _)) ↔ _
    rw [summary, lines_printedLines_page]
    exact levelLine_mem_page_iff _ _
  looked := by
    rintro rfl
    rfl
  loaded := by
    intro h
    rcases h with rfl | rfl
    · exact ⟨rfl, errors_applied { c with settings := Settings.ofVariables c.environment }⟩
    · exact ⟨rfl, errors_applied c⟩

/-- **A run of operations** — for every sequence of operations, from the beginning. At each of
them, what is in force follows from those before it, and what it answers follows from what is in
force; what is then in force follows from those up to it. -/
theorem run_follows (before : List Operation) (operation : Operation) (later : List Operation) :
    let c := initial.after before
    let effect := c.perform operation
    initial.run (before ++ operation :: later) =
        initial.run before ++ effect :: effect.control.run later ∧
      c.Follows before ∧ effect.control.Follows (before ++ [operation]) ∧
      c.Reports operation effect := by
  intro c effect
  have hnext : effect.control = initial.after (before ++ [operation]) :=
    (after_append initial before [operation]).symm
  refine ⟨run_append initial before _, follows_after before, ?_, reports_perform c operation⟩
  rw [hnext]
  exact follows_after _

end Control
end LineShell
