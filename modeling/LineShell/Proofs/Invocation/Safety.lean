/-
# LineShell.Proofs.Invocation.Safety -- what a run can do, by its arguments

Whatever the arguments are, a run ends in one of four ways (`ending_run_mem`). It lets lines be run
only if the arguments spell uses of options (`Options.Spells`) among which nobody asks for the
settings and the last name of a level is one (`Options.Permits`). In all other cases it shows lines
and messages, which depend on nothing but the arguments and the settings, and leaves the tree alone
(`isIdle_of_not_permits`). Where the uses give a line, that line is run once, as a step of a
session, and the input is not looked at (`run_of_line`).

The exit statuses of programs show in messages and nowhere else; no run ends with one
(`run_withStatuses`).

A line or a level that is given as the mark `--` is left without its text. What happens then is
not told here.
-/

import LineShell.Proofs.Invocation.Endings
import LineShell.Proofs.Options.Grammar
import LineShell.Proofs.Session.Statuses
import LineShell.Proofs.Settings.LevelName

namespace LineShell

open LineShell.Action

/-- The event is a line or a message that is shown. -/
def Event.isShown : Event → Bool
  | printed _ | complained _ | logged _ => true
  | _ => false

/-! ## Permission -/

namespace Options

/-- **Allows** — the last name of a level is empty, or the mark, or is the name of one. -/
def AllowsLevel (uses : List Use) : Prop :=
  ∀ name, (levelNames uses).getLast? = some name →
    name = [] ∨ name = "--" ∨ ∃ level : Level, level.IsNamed name

/-- **Permits** — lines may be run: nobody asks for the settings, and the level is allowed. -/
structure Permits (uses : List Use) : Prop where
  settings_hidden : .showSettings ∉ uses
  level_allowed : AllowsLevel uses

/-- The level at which lines are run: the one that the last name names, or the configured one. -/
def levelOf (configured : Level) (uses : List Use) : Level :=
  ((levelNames uses).getLast?.bind Level.ofName?).getD configured

section Level

variable {uses : List Use} (configured : Level) {name : Text}

theorem chosenLevel_of_ofName?_eq_some {level : Level} (h : Level.ofName? name = some level) :
    Invocation.chosenLevel configured (some name) = .ok level := by
  have hempty : name ≠ [] := by
    rintro rfl
    exact nomatch h
  obtain ⟨c, rest, rfl⟩ := List.exists_cons_of_ne_nil hempty
  simp only [Invocation.chosenLevel, h]

theorem chosenLevel_of_ofName?_eq_none (hempty : name ≠ []) (h : Level.ofName? name = none) :
    Invocation.chosenLevel configured (some name) = .error name := by
  obtain ⟨c, rest, rfl⟩ := List.exists_cons_of_ne_nil hempty
  simp only [Invocation.chosenLevel, h]

theorem chosenLevel_of_allowsLevel (h : AllowsLevel uses) :
    Invocation.chosenLevel configured (Choices.ofUses uses).level =
      .ok (levelOf configured uses) := by
  unfold levelOf Choices.ofUses
  dsimp only
  rcases hlast : (levelNames uses).getLast? with _ | name
  · rfl
  · rcases h name hlast with rfl | rfl | ⟨level, hlevel⟩
    · rfl
    · rfl
    · have hfound := Level.ofName?_eq_some_iff.mpr hlevel
      have hmark : name ≠ "--" := by
        rintro rfl
        exact nomatch hfound
      rw [Option.bind_some, Option.bind_some, valueOf, if_neg hmark, hfound]
      exact chosenLevel_of_ofName?_eq_some configured hfound

/-- A level that is not allowed is refused by its name. -/
theorem exists_chosenLevel_of_not_allowsLevel (h : ¬ AllowsLevel uses) :
    ∃ name, ∀ configured,
      Invocation.chosenLevel configured (Choices.ofUses uses).level = .error name := by
  simp only [AllowsLevel, not_forall, not_or, not_exists] at h
  obtain ⟨name, hlast, hempty, hmark, hunnamed⟩ := h
  refine ⟨name, fun configured => ?_⟩
  show Invocation.chosenLevel configured ((levelNames uses).getLast?.bind valueOf) = _
  rw [hlast, Option.bind_some, valueOf, if_neg hmark]
  exact chosenLevel_of_ofName?_eq_none configured hempty (Level.ofName?_eq_none_iff.mpr hunnamed)

end Level
end Options

namespace Invocation

open LineShell.Options

/-! ## Endings -/

/-- **Ends in zero** — if the session comes to an ending, its code is zero. -/
def EndsInZero (session : Action Ending) : Prop :=
  ∀ w ending w', session.perform w = (.ok ending, w') → ending.code = 0

theorem endsInZero_pure {ending : Ending} (h : ending.code = 0) : EndsInZero (pure ending) := by
  intro w other w' hperform
  obtain ⟨heq, -⟩ := Prod.mk.inj hperform
  obtain rfl := Except.ok.inj heq
  exact h

theorem EndsInZero.bind {α : Type} {x : Action α} {f : α → Action Ending}
    (h : ∀ a, EndsInZero (f a)) : EndsInZero (x >>= f) := by
  intro w ending w' hperform
  obtain ⟨a, w₁, -, hnext⟩ := perform_bind_eq_ok_iff.mp hperform
  exact h a w₁ ending w' hnext

section Endings

variable (host : Host) (launcher : Launcher) (prompt : Text)

theorem endsInZero_runOnce (line : Text) (state : State) :
    EndsInZero (runOnce host launcher line state) := by
  refine .bind fun _ => endsInZero_pure ?_
  split <;> rfl

theorem endsInZero_loop (state : State) (lines : List Text) :
    EndsInZero (loop host launcher prompt state lines) := by
  induction lines generalizing state with
  | nil => exact .bind fun _ => .bind fun _ => .bind fun _ => endsInZero_pure rfl
  | cons line rest ih =>
    refine .bind fun _ => .bind fun next => ?_
    split
    · exact endsInZero_pure rfl
    · exact ih next

theorem endsInZero_interact (state : State) (input : Text) :
    EndsInZero (interact host launcher prompt state input) :=
  .bind fun _ => endsInZero_loop host launcher prompt state _

end Endings

/-- The ways in which a run ends. -/
def endings : List Ending := [.returned 0, .returned 1, .exited 0, .exited 2]

theorem ending_conducting_mem {session : Action Ending} (h : EndsInZero session) (limit : Level)
    (tree : Tree) : (conducting limit session tree).ending ∈ endings := by
  rcases hperform : session.perform ⟨tree, limit, []⟩ with ⟨fault | ending, w⟩
  · rw [conducting_of_error hperform]
    exact List.mem_cons_of_mem _ List.mem_cons_self
  · have hzero := h _ ending w hperform
    rw [conducting_of_ok hperform]
    cases ending with
    | returned code =>
      obtain rfl : code = 0 := hzero
      exact List.mem_cons_self
    | exited code =>
      obtain rfl : code = 0 := hzero
      show Ending.exited 0 ∈ endings
      decide

theorem ending_runChoices_mem (host : Host) (launcher : Launcher) (settings : Settings)
    (choices : Choices) (input : Text) (tree : Tree) :
    (runChoices host launcher settings choices input tree).ending ∈ endings := by
  unfold runChoices
  split
  · exact List.mem_cons_of_mem _ List.mem_cons_self
  · split
    · exact List.mem_cons_self
    · dsimp only
      split
      · exact ending_conducting_mem (endsInZero_runOnce _ _ _ _) _ _
      · exact List.mem_cons_of_mem _ List.mem_cons_self
      · exact ending_conducting_mem (endsInZero_interact _ _ _ _ _) _ _

/-- **Four endings** — every run ends in one of them. -/
theorem ending_run_mem (host : Host) (launcher : Launcher) (arguments : List Text) (input : Text)
    (tree : Tree) : (run host launcher arguments input tree).ending ∈ endings := by
  have hexited : Ending.exited 0 ∈ endings ∧ Ending.exited 2 ∈ endings := by decide
  unfold run
  dsimp only
  cases Options.read arguments with
  | help => exact hexited.1
  | version => exact hexited.1
  | misuse message => exact hexited.2
  | run choices => exact ending_runChoices_mem host launcher _ choices input tree

/-! ## Runs without permission -/

/-- **Idle** — whatever the launcher, the input and the tree are, the outcome is one that only
shows lines and messages, and the tree stays. -/
def IsIdle (outcome : Launcher → Text → Tree → Outcome) : Prop :=
  ∃ ending events, (∀ event ∈ events, event.isShown = true) ∧
    ∀ launcher input tree, outcome launcher input tree = ⟨ending, events, tree⟩

theorem isIdle_lines (ending : Ending) (lines : List Text) {view : Text → Event}
    (h : ∀ line, (view line).isShown = true) :
    IsIdle fun _ _ tree => ⟨ending, lines.map view, tree⟩ := by
  refine ⟨ending, lines.map view, ?_, fun _ _ _ => rfl⟩
  intro event he
  obtain ⟨line, -, rfl⟩ := List.mem_map.mp he
  exact h line

theorem isIdle_showing (ending : Ending) (lines : List Text) :
    IsIdle fun _ _ tree => showing ending lines tree := isIdle_lines ending lines fun _ => rfl

theorem isIdle_complaining (ending : Ending) (lines : List Text) :
    IsIdle fun _ _ tree => complaining ending lines tree := isIdle_lines ending lines fun _ => rfl

/-- The messages about the settings, when they are loaded. -/
def loadingNotes (settings : Settings) : List Event :=
  (settings.level.2.filter (settings.level.1.admits ·.level)).map .logged

/-- What a request comes to. -/
def answering (host : Host) (launcher : Launcher) (input : Text) (tree : Tree) :
    Request → Outcome
  | .help => showing (.exited 0) helpLines tree
  | .version => showing (.exited 0) [programName ++ " " ++ version] tree
  | .misuse message => complaining (.exited 2) (misuseLines message) tree
  | .run choices =>
    runChoices host launcher (Settings.ofVariables host.environment) choices input tree

/-- The outcome behind some messages. -/
def Outcome.behind (notes : List Event) (o : Outcome) : Outcome :=
  { o with events := notes ++ o.events }

/-- A run is what it is asked for, behind the messages about the settings. -/
theorem run_eq (host : Host) (launcher : Launcher) (arguments : List Text) (input : Text)
    (tree : Tree) :
    run host launcher arguments input tree =
      (answering host launcher input tree (Options.read arguments)).behind
        (loadingNotes (Settings.ofVariables host.environment)) := by
  unfold run answering
  cases Options.read arguments <;> rfl

theorem IsIdle.behind {outcome : Launcher → Text → Tree → Outcome} (h : IsIdle outcome)
    (settings : Settings) :
    IsIdle fun launcher input tree =>
      (outcome launcher input tree).behind (loadingNotes settings) := by
  obtain ⟨ending, events, hshown, houtcome⟩ := h
  refine ⟨ending, loadingNotes settings ++ events, ?_, fun launcher input tree => ?_⟩
  · intro event he
    rcases List.mem_append.mp he with he | he
    · obtain ⟨m, -, rfl⟩ := List.mem_map.mp he
      rfl
    · exact hshown event he
  · exact congrArg (Outcome.behind _) (houtcome launcher input tree)

/-- Uses that do not permit it let no line be run. -/
theorem isIdle_runChoices {uses : List Use} (h : ¬ Permits uses) (host : Host)
    (settings : Settings) :
    IsIdle fun launcher input tree =>
      runChoices host launcher settings (Choices.ofUses uses) input tree := by
  by_cases hlevel : AllowsLevel uses
  · have hshow : (Choices.ofUses uses).showSettings = true := by
      by_contra hhidden
      exact h ⟨fun hmem => hhidden (Choices.showSettings_ofUses_iff.mpr hmem), hlevel⟩
    simp only [runChoices, chosenLevel_of_allowsLevel _ hlevel, hshow, if_true]
    exact isIdle_showing _ _
  · obtain ⟨name, hrefused⟩ := exists_chosenLevel_of_not_allowsLevel hlevel
    simp only [runChoices, hrefused]
    exact isIdle_complaining _ _

/-- **Without permission** no line is run: nothing is done but to show lines and messages, and
neither the input nor the programs make a difference. -/
theorem isIdle_of_not_permits {arguments : List Text}
    (h : ¬ ∃ uses, Spells arguments uses ∧ Permits uses) (host : Host) :
    IsIdle fun launcher input tree => run host launcher arguments input tree := by
  simp only [run_eq]
  apply IsIdle.behind
  rcases hread : Options.read arguments with _ | _ | message | choices
  · exact isIdle_showing _ _
  · exact isIdle_showing _ _
  · exact isIdle_complaining _ _
  · obtain ⟨uses, hspells, rfl⟩ := read_eq_run_iff.mp hread
    exact isIdle_runChoices (fun hpermits => h ⟨uses, hspells, hpermits⟩) host _

/-! ## A single line -/

/-- **Of a step** — the outcome of a run that is one step of a session. The line ends it by a
fault, by asking for it, or by coming to its end. -/
def Outcome.ofStep (line : Text) (stepped : Session.Report × World) : Outcome where
  ending := match stepped.1.fault with
    | some _ => .returned 1
    | none => if (CommandLine.ofLine line).command = "exit 0" then .exited 0 else .returned 0
  events := stepped.2.events ++ match stepped.1.fault with
    | some fault => [.complained ("Error: " ++ fault.message)]
    | none => []
  tree := stepped.2.tree

/-- A single line is a step of a session. -/
theorem conducting_runOnce (host : Host) (launcher : Launcher) (limit : Level) (line : Text)
    (state : State) (tree : Tree) :
    conducting limit (runOnce host launcher line state) tree =
      .ofStep line (Session.step host launcher state (.line line) ⟨tree, limit, []⟩) := by
  rcases hline : (Session.runLine host launcher line state).perform ⟨tree, limit, []⟩ with
    ⟨fault | next, w⟩
  · have honce : (runOnce host launcher line state).perform ⟨tree, limit, []⟩ =
        (.error fault, w) := by
      rw [runOnce, perform_bind, hline]
    rw [conducting_of_error honce, Session.step, hline]
    rfl
  · have honce : (runOnce host launcher line state).perform ⟨tree, limit, []⟩ =
        (.ok (if leaves line then .exited 0 else .returned 0), w) := by
      rw [runOnce, perform_bind, hline]
      rfl
    rw [conducting_of_ok honce, Session.step, hline]
    simp only [leaves_iff, Session.step.settle, Outcome.ofStep, List.append_nil]

/-! ## Runs with permission -/

section Permitted

variable {arguments : List Text} {uses : List Use}

theorem showSettings_of_permits (h : Permits uses) :
    (Choices.ofUses uses).showSettings = false := by
  rw [Bool.eq_false_iff]
  exact fun hshow => h.settings_hidden (Choices.showSettings_ofUses_iff.mp hshow)

/-- What the uses ask for is done at the level that counts. -/
theorem answering_of_permits (h : Permits uses) (host : Host) (launcher : Launcher) (input : Text)
    (tree : Tree) :
    let settings := Settings.ofVariables host.environment
    let limit := levelOf settings.level.1 uses
    let answer := answering host launcher input tree (.run (Choices.ofUses uses))
    (∀ line, (Choices.ofUses uses).command = some (some line) →
      answer = conducting limit (runOnce host launcher line (State.ofHost host)) tree) ∧
    ((Choices.ofUses uses).command = none →
      answer = conducting limit
        (interact host launcher settings.prompt (State.ofHost host) input) tree) := by
  have hlevel := fun configured => chosenLevel_of_allowsLevel configured h.level_allowed
  refine ⟨fun line hcommand => ?_, fun hcommand => ?_⟩
  · simp only [answering, runChoices, hlevel, showSettings_of_permits h, hcommand,
      Bool.false_eq_true, if_false]
  · simp only [answering, runChoices, hlevel, showSettings_of_permits h, hcommand,
      Bool.false_eq_true, if_false]

theorem read_of_spells (h : Spells arguments uses) :
    Options.read arguments = .run (Choices.ofUses uses) := read_eq_run_iff.mpr ⟨uses, h, rfl⟩

/-- **A line that is given** is run, once, and the input is not looked at. -/
theorem run_of_line {line : Text} (hspells : Spells arguments uses) (h : Permits uses)
    (hline : (lines uses).getLast? = some line) (hmark : line ≠ "--") (host : Host)
    (launcher : Launcher) (input : Text) (tree : Tree) :
    let settings := Settings.ofVariables host.environment
    run host launcher arguments input tree =
      (Outcome.ofStep line (Session.step host launcher (State.ofHost host) (.line line)
        ⟨tree, levelOf settings.level.1 uses, []⟩)).behind (loadingNotes settings) := by
  have hcommand : (Choices.ofUses uses).command = some (some line) := by
    show (lines uses).getLast?.map valueOf = _
    rw [hline]
    exact congrArg some (if_neg hmark)
  intro settings
  rw [run_eq, read_of_spells hspells,
    (answering_of_permits h host launcher input tree).1 line hcommand, conducting_runOnce]

/-- **Without a line** the lines of the input are run. -/
theorem run_of_no_line (hspells : Spells arguments uses) (h : Permits uses)
    (hlines : lines uses = []) (host : Host) (launcher : Launcher) (input : Text) (tree : Tree) :
    let settings := Settings.ofVariables host.environment
    run host launcher arguments input tree =
      (conducting (levelOf settings.level.1 uses)
        (interact host launcher settings.prompt (State.ofHost host) input) tree).behind
          (loadingNotes settings) := by
  have hcommand : (Choices.ofUses uses).command = none := by
    show (lines uses).getLast?.map valueOf = _
    rw [hlines]
    rfl
  intro settings
  rw [run_eq, read_of_spells hspells,
    (answering_of_permits h host launcher input tree).2 hcommand]

end Permitted

/-! ## Exit statuses -/

section Statuses

variable (host : Host) (launcher : Launcher) (status : Tree → List Location → Launch → Int)

/-- **Differ in messages** — the outcomes are the same but for messages. -/
structure Outcome.IsAlike (o o' : Outcome) : Prop where
  ending : o'.ending = o.ending
  tree : o'.tree = o.tree
  deeds : LineShell.deeds o'.events = LineShell.deeds o.events

theorem Outcome.IsAlike.refl (o : Outcome) : o.IsAlike o := ⟨rfl, rfl, rfl⟩

theorem Outcome.IsAlike.behind {o o' : Outcome} (h : o.IsAlike o') (notes : List Event) :
    (o.behind notes).IsAlike (o'.behind notes) where
  ending := h.ending
  tree := h.tree
  deeds := by
    show LineShell.deeds (notes ++ o'.events) = LineShell.deeds (notes ++ o.events)
    rw [deeds_append, deeds_append, h.deeds]

theorem isAlike_conducting {x y : Action Ending} (h : Mirrors Eq x y) (limit : Level)
    (tree : Tree) : (conducting limit x tree).IsAlike (conducting limit y tree) := by
  have hagree := h ⟨tree, limit, []⟩ ⟨tree, limit, []⟩ (.refl _)
  unfold conducting
  generalize x.perform ⟨tree, limit, []⟩ = first, y.perform ⟨tree, limit, []⟩ = second at hagree ⊢
  cases hagree with
  | ok heq halike => exact ⟨heq.symm, halike.tree, halike.deeds⟩
  | error fault halike =>
    refine ⟨rfl, halike.tree, ?_⟩
    dsimp only
    rw [deeds_append, deeds_append, halike.deeds]

theorem mirrors_runOnce (line : Text) (state : State) :
    Mirrors Eq (runOnce host launcher line state)
      (runOnce host (launcher.withStatuses status) line state) :=
  .bind (Session.mirrors_runLine host launcher status line state) fun _ _ _ => mirrors_pure rfl

/-- From one line to the next the states are the same. -/
theorem mirrors_loop (prompt : Text) (state : State) (lines : List Text) :
    Mirrors Eq (loop host launcher prompt state lines)
      (loop host (launcher.withStatuses status) prompt state lines) := by
  induction lines generalizing state with
  | nil =>
    refine .bind (uniform_emit rfl).mirrors fun _ _ _ => .bind (mirrors_note _ _) fun _ _ _ => ?_
    exact .bind (uniform_emit rfl).mirrors fun _ _ _ => mirrors_pure rfl
  | cons line rest ih =>
    refine .bind (uniform_emit rfl).mirrors fun _ _ _ => ?_
    refine .bind (Session.mirrors_runLine host launcher status line state) ?_
    rintro next _ rfl
    split
    · exact mirrors_pure rfl
    · exact ih next

theorem mirrors_interact (prompt : Text) (state : State) (input : Text) :
    Mirrors Eq (interact host launcher prompt state input)
      (interact host (launcher.withStatuses status) prompt state input) :=
  .bind (mirrors_note _ _) fun _ _ _ => mirrors_loop host launcher status prompt state _

theorem isAlike_runChoices (settings : Settings) (choices : Choices) (input : Text)
    (tree : Tree) :
    (runChoices host launcher settings choices input tree).IsAlike
      (runChoices host (launcher.withStatuses status) settings choices input tree) := by
  unfold runChoices
  rcases chosenLevel settings.level.1 choices.level with name | limit
  · exact .refl _
  dsimp only
  split
  · exact .refl _
  · rcases choices.command with _ | _ | line
    · exact isAlike_conducting (mirrors_interact host launcher status _ _ input) limit tree
    · exact .refl _
    · exact isAlike_conducting (mirrors_runOnce host launcher status line _) limit tree

/-- **Exit statuses** of programs change messages at most; no run ends with one. -/
theorem run_withStatuses (arguments : List Text) (input : Text) (tree : Tree) :
    (run host launcher arguments input tree).IsAlike
      (run host (launcher.withStatuses status) arguments input tree) := by
  rw [run_eq, run_eq]
  apply Outcome.IsAlike.behind
  cases Options.read arguments with
  | run choices => exact isAlike_runChoices host launcher status _ choices input tree
  | help => exact .refl _
  | version => exact .refl _
  | misuse message => exact .refl _

end Statuses

/-! ## All arguments -/

/-- **Arguments and what they let happen** — a run has one of four endings. Unless the arguments
spell uses that permit it, no line is run. Uses that permit it and give a line come to this line,
the last of them, as a single step of a session, whatever the input is. Uses that give none come to
the lines of the input. The exit statuses of programs make no difference but for messages. -/
theorem run_safe (host : Host) (launcher : Launcher) (arguments : List Text) (input : Text)
    (tree : Tree) :
    let settings := Settings.ofVariables host.environment
    let ran := run host launcher arguments input tree
    ran.ending ∈ [.returned 0, .returned 1, .exited 0, .exited 2] ∧
    ((¬ ∃ uses, Spells arguments uses ∧ Permits uses) →
      IsIdle fun launcher input tree => run host launcher arguments input tree) ∧
    (∀ uses, Spells arguments uses → Permits uses →
      let limit := levelOf settings.level.1 uses
      (∀ line, (lines uses).getLast? = some line → line ≠ "--" → ∀ input,
        run host launcher arguments input tree =
          (Outcome.ofStep line (Session.step host launcher (State.ofHost host) (.line line)
            ⟨tree, limit, []⟩)).behind (loadingNotes settings)) ∧
      (lines uses = [] → ran =
        (conducting limit (interact host launcher settings.prompt (State.ofHost host) input)
          tree).behind (loadingNotes settings))) ∧
    ∀ status, ran.IsAlike (run host (launcher.withStatuses status) arguments input tree) := by
  intro settings ran
  refine ⟨ending_run_mem host launcher arguments input tree,
    fun h => isIdle_of_not_permits h host, fun uses hspells h => ⟨?_, ?_⟩,
    fun status => run_withStatuses host launcher status arguments input tree⟩
  · intro line hline hmark input
    exact run_of_line hspells h hline hmark host launcher input tree
  · intro hlines
    exact run_of_no_line hspells h hlines host launcher input tree

/-- A name that is no level lets no line be run. A line that is given twice is run as it is given
last, and the program that it launches ends with three. -/
theorem run_safe_repeated :
    let host : Host := ⟨[], [("PATH", "/bin")], none, 990⟩
    let launcher := Launcher.ofTable [("x", .ok ⟨⟨["a"], none⟩, ⟨[], none⟩, 3⟩)] fun _ => []
    let tree := Tree.empty.put ["x", "bin"] (.file [] true)
    let unnamed : List Text := ["-cx > f", "--log=loud"]
    let arguments : List Text := ["--comm", "pwd", "-l=", "--command=x > f"]
    let uses : List Use := [.command "pwd", .level [], .command "x > f"]
    let ran := run host launcher arguments [] tree
    (¬ ∃ uses, Spells unnamed uses ∧ Permits uses) ∧
      IsIdle (fun launcher input tree => run host launcher unnamed input tree) ∧
    Spells arguments uses ∧ Permits uses ∧
      ran = (Outcome.ofStep "x > f" (Session.step host launcher (State.ofHost host)
        (.line "x > f") ⟨tree, .error, []⟩)).behind [] ∧
      ran.ending = .returned 0 ∧ ran.tree.at? ["f"] = some (.file ↑"a\n" false) := by
  intro host launcher tree unnamed arguments uses ran
  have hunnamed : ¬ ∃ uses, Spells unnamed uses ∧ Permits uses := by
    rintro ⟨uses, hspells, hpermits⟩
    have hread : Options.read unnamed = .run ⟨some (some ↑"x > f"), some ↑"loud", false⟩ := by
      decide +kernel
    have hlevel := chosenLevel_of_allowsLevel .error hpermits.level_allowed
    rw [read_of_spells hspells] at hread
    rw [Request.run.inj hread] at hlevel
    exact nomatch hlevel
  have hspells : Spells arguments uses := by
    have hshort : Names "--comm" .command none :=
      .bare (.inr ⟨rfl, by rintro (_ | _ | _ | _ | _) <;> decide⟩)
    have hlevel : Names "-l=" .level (some []) :=
      @Names.joined "-l" [] .level (by decide) (.inl (by decide))
    have hlong : Names "--command=x > f" .command (some ↑"x > f") :=
      @Names.joined "--command" "x > f" .command (by decide) (.inl (by decide))
    exact .apart hshort rfl (.inl (by decide)) (.single hlevel (.single hlong .done))
  have hpermits : Permits uses := by
    refine ⟨by decide, fun name hname => .inl ?_⟩
    exact (Option.some.inj hname).symm
  obtain ⟨-, -, hran, -⟩ := run_safe host launcher arguments [] tree
  refine ⟨hunnamed, (run_safe host launcher unnamed [] tree).2.1 hunnamed, hspells, hpermits,
    (hran uses hspells hpermits).1 "x > f" rfl (by decide) [], ?_, ?_⟩
  · decide +kernel
  · decide +kernel

/-- A level is named that is none, and behind it another one that counts: the line is run, and
makes a file. A line that is the mark is given, but not run. -/
theorem runs_line_past_unnamed_level :
    let host : Host := ⟨[], [], none, 990⟩
    let launcher : Launcher := .ofTable [] fun _ => []
    let arguments : List Text := ["-l", "chatty", "-l", "info", "-c", "echo x > f"]
    let ran := run host launcher arguments [] Tree.empty
    let marked := run host launcher ["-c--"] [] Tree.empty
    let stepped := Session.step host launcher (State.ofHost host) (.line "--")
      ⟨Tree.empty, .error, []⟩
    (Spells arguments [.level "chatty", .level "info", .command "echo x > f"] ∧
      (∀ level : Level, ¬ level.IsNamed "chatty") ∧
      ran.ending = .returned 0 ∧ Tree.empty.at? ["f"] = none ∧
      ran.tree.at? ["f"] = some (.file ↑"x\n" false)) ∧
    Spells ["-c--"] [.command "--"] ∧ stepped.2.events = [.printed "--: command not found"] ∧
      marked.ending = .returned 1 ∧ marked.output = [] := by
  intro host launcher arguments ran marked stepped
  have hletter {use : Use} {name text : Text} {rest : List Text} {uses : List Use}
      (hname : name ∈ use.switch.names) (htext : use.text? = some text)
      (hhead : text.head? ≠ some '-') (h : Spells rest uses) :
      Spells (name :: text :: rest) (use :: uses) :=
    .apart (.bare (.inl hname)) htext (.inl hhead) h
  refine ⟨⟨?_, ?_, ?_, rfl, ?_⟩, ?_, ?_, ?_, ?_⟩
  · apply hletter (by decide) rfl (by decide)
    apply hletter (by decide) rfl (by decide)
    exact hletter (by decide) rfl (by decide) .done
  · apply Level.ofName?_eq_none_iff.mp
    decide
  · decide +kernel
  · decide +kernel
  · exact .single (.letter (by decide) (by decide) (by decide)) .done
  · decide +kernel
  · decide +kernel
  · decide +kernel

end Invocation
end LineShell
