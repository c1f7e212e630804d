/-
# LineShell.Proofs.Session.Contained -- what a line that fails leaves behind

A system error in a line is contained. Wherever the command fails, the state stays as it was,
and the user is told in one line, behind what the program that was launched has printed; a
builtin that fails has printed nothing by then (`dispatch_tellsAtFailure`). One warning is
noted, if the log level admits warnings, and the next line goes on from the same state and the
tree that is there (`Contained`).

That is all that can go wrong with a line without NUL characters, but for one thing: a target
with too many missing directories above it is a fault that the line does not contain. Which
lines ask for that is known exactly (`runLine_contained`), and such a line can be written down
(`runLine_nested_not_contained`).
-/

import LineShell.Proofs.Program.Notable
import LineShell.Proofs.Session.Breaks
import Mathlib.Control.Monad.Basic
import Mathlib.Data.Prod.Basic

namespace LineShell

open LineShell.Action

/-! ## Commands that fail -/

namespace Builtin

variable {host : Host} {table : Launcher.Table} {turns : Launch → List Channel}
  {line : CommandLine} {state : State}

/-- A line that is not delivered leaves no trace: it is printed last of all. -/
theorem deliver_tellsAtFailure {P : List Event → Prop} (hnil : P []) (text : Text) (w : World) :
    (deliver host line state text).TellsAtFailure w P := by
  obtain ⟨command, output, error⟩ := line
  have hprint : (printLine text).Unfailing := unfailing_emit _
  cases output with
  | some path => exact ((Target.discreet_fill host path _ _).tells hnil w).tellsAtFailure
  | none =>
    cases error with
    | some path =>
      have htouch := Target.discreet_touch host path state.directory
      exact htouch.behind_atFailure hnil fun _ _ _ => hprint.tellsAtFailure
    | none => exact hprint.tellsAtFailure

theorem discreet_touchTargets : (touchTargets host line state).Discreet := by
  obtain ⟨command, output, error⟩ := line
  have htouch := fun path => Target.discreet_touch host path state.directory
  cases output with
  | some path =>
    cases error with
    | some path' => exact (htouch path).bind fun _ => htouch path'
    | none => exact (htouch path).bind fun _ => discreet_pure ()
  | none =>
    cases error with
    | some path' => exact htouch path'
    | none => exact discreet_pure ()

theorem discreet_description (name : Text) : (description host state name).Discreet := by
  unfold description
  split
  · exact discreet_pure _
  · refine (Program.discreet_find _ _).bind fun found => ?_
    cases found <;> exact discreet_pure _

theorem unfailing_changeDirectory (path : Text) : (changeDirectory host path state).Unfailing := by
  intro w
  obtain ⟨next, events, hchange, -⟩ := changeDirectory_cases host path state w
  exact ⟨next, _, hchange⟩

/-- What is notable of a command that fails: nothing, or the launch of a program and the lines
that it has printed. -/
def FailureTold (table : Launcher.Table) (line : CommandLine) (told : List Event) : Prop :=
  told = [] ∨ ∃ launch : Launch,
    told = .launched launch :: (Program.shownLines table line launch.executable).map .printed

namespace FailureTold

variable {told : List Event}

theorem launched?_launch (launch : Launch) (lines : List Text) :
    (Event.launched launch :: lines.map .printed).filterMap Event.launched? = [launch] :=
  congrArg (launch :: ·) (launched?_map_printed lines)

theorem launched_length (h : FailureTold table line told) :
    (told.filterMap Event.launched?).length ≤ 1 := by
  rcases h with rfl | ⟨launch, rfl⟩
  · exact Nat.zero_le 1
  · rw [launched?_launch]
    exact Nat.le_refl 1

theorem printed_eq (h : FailureTold table line told) :
    told.filterMap Event.printed? = (told.filterMap Event.launched?).flatMap
      fun launch => Program.shownLines table line launch.executable := by
  rcases h with rfl | ⟨launch, rfl⟩
  · rfl
  · rw [launched?_launch, List.filterMap_cons_none rfl, printed?_map_printed]
    exact (List.append_nil _).symm

theorem warned_eq (h : FailureTold table line told) : told.filterMap Event.warned? = [] := by
  rcases h with rfl | ⟨launch, rfl⟩
  · rfl
  · simp [Event.warned?]

theorem launched_or_printed (h : FailureTold table line told) {event : Event} (he : event ∈ told) :
    (∃ launch, event = .launched launch) ∨ ∃ text, event = .printed text := by
  rcases h with rfl | ⟨launch, rfl⟩
  · exact absurd he (by simp)
  · rcases List.mem_cons.mp he with rfl | he
    · exact .inl ⟨launch, rfl⟩
    · obtain ⟨text, -, rfl⟩ := List.mem_map.mp he
      exact .inr ⟨text, rfl⟩

end FailureTold

theorem run_tellsAtFailure (w : World) :
    (Program.run host (.ofTable table turns) line state).TellsAtFailure w
      (FailureTold table line) := by
  unfold Program.run
  split
  · exact (unfailing_pure none).tellsAtFailure
  · rename_i name arguments _
    refine (Program.discreet_find _ _).behind_atFailure (.inl rfl) fun found w' _ => ?_
    cases found with
    | none => exact ((unfailing_emit _).bind fun _ => unfailing_pure none).tellsAtFailure
    | some executable =>
      -- the status is handed on behind what the program tells
      have htells : (Program.runFound host (.ofTable table turns) line state name arguments
          executable).Tells w' (FailureTold table line) := by
        refine (Program.runFound_tells table turns line name executable arguments w').mono ?_
        rintro told (hnothing | hlaunch)
        · exact .inl hnothing
        · exact .inr ⟨_, hlaunch⟩
      exact htells.tellsAtFailure.bind fun _ => unfailing_pure _

/-- An empty command does nothing. -/
theorem perform_dispatch_nil {launcher : Launcher} (h : line.command = []) (w : World) :
    (dispatch host launcher line state).perform w = (.ok state, w) := by
  have hverb : Verb.ofCommand line.command = .program := by
    rw [h]
    rfl
  have hrun : (Program.run host launcher line state).perform w = (.ok none, w) := by
    rw [Program.run, h, words_nil]
    rfl
  rw [dispatch, hverb]
  dsimp only
  rw [perform_bind, hrun]
  rfl

/-- **A command that fails** has printed nothing but the lines of a program that it launched. -/
theorem dispatch_tellsAtFailure (w : World) :
    (dispatch host (.ofTable table turns) line state).TellsAtFailure w
      (FailureTold table line) := by
  have hdeliver (text : Text) (w : World) : (deliver host line state text).TellsAtFailure w
      (FailureTold table line) := deliver_tellsAtFailure (.inl rfl) text w
  have hpure : (pure state : Action State).Unfailing := unfailing_pure state
  unfold dispatch
  split
  · exact ((unfailing_note _).bind fun _ => (unfailing_emit _).bind fun _ => hpure).tellsAtFailure
  · exact (hdeliver _ w).bind fun _ => hpure
  · exact (hdeliver _ w).bind fun _ => hpure
  · refine (discreet_description _).behind_atFailure (.inl rfl) fun text w' _ => ?_
    exact (hdeliver text w').bind fun _ => hpure
  · refine discreet_touchTargets.behind_atFailure (.inl rfl) fun _ w' _ => ?_
    exact (unfailing_changeDirectory _).tellsAtFailure
  · exact (run_tellsAtFailure w).bind fun _ => hpure

end Builtin

/-! ## Lines -/

namespace Session

/-- Splitting a line is discreet. -/
theorem discreet_split (line : Text) : (split line).Discreet := by
  unfold split
  dsimp only
  split
  · exact (discreet_debug _).bind fun _ => discreet_pure _
  · exact discreet_pure _

/-- **Contained** — what happens in a line whose command ends in a system error. -/
structure Contained (table : Launcher.Table) (line : CommandLine) (error : SystemError)
    (limit : Level) (events : List Event) : Prop where
  /-- One program is launched at most. -/
  launched : (events.filterMap Event.launched?).length ≤ 1
  /-- What is printed are the lines of that program, as far as they are not redirected, and
  behind them the report. -/
  printed : events.filterMap Event.printed? =
    (events.filterMap Event.launched?).flatMap
      (fun launch => Program.shownLines table line launch.executable) ++ [failureReport error]
  /-- Nothing else is written. -/
  wrote : ∀ text, .wrote text ∉ events
  /-- The shell goes on. -/
  exited : ∀ code, .exited code ∉ events
  /-- There is one warning, at the levels that show warnings. -/
  warned : events.filterMap Event.warned? =
    if limit ∈ [Level.warning, .info, .debug] then [failureNote line error] else []

/-- A warning is notable. -/
theorem warned?_of_not_notable {event : Event} (h : event.isNotable = false) :
    event.warned? = none := by
  cases event with
  | logged m =>
    refine if_neg fun hlevel => ?_
    rw [Event.isNotable, hlevel] at h
    exact absurd h (by decide)
  | _ => rfl

section Notable

variable {table : Launcher.Table} {line : CommandLine} {error : SystemError} {limit : Level}
  {events told : List Event}

/-- A view of notable events shows what was told, the warning and the report, in order. -/
theorem filterMap_of_notable {α : Type} {view : Event → Option α}
    (h : notable events = told ++ ((failureNote line error).eventsAt limit ++
      [.printed (failureReport error)]))
    (hview : ∀ event, event.isNotable = false → view event = none) :
    events.filterMap view = told.filterMap view ++
      (((failureNote line error).eventsAt limit).filterMap view ++
        [Event.printed (failureReport error)].filterMap view) := by
  rw [← filterMap_notable hview, h, List.filterMap_append, List.filterMap_append]

/-- Nothing else is notable but a launch, lines that are printed, and messages. -/
theorem cases_of_notable (htold : Builtin.FailureTold table line told)
    (h : notable events = told ++ ((failureNote line error).eventsAt limit ++
      [.printed (failureReport error)])) {event : Event} (he : event ∈ events)
    (hevent : event.isNotable = true) :
    (∃ launch, event = .launched launch) ∨ (∃ text, event = .printed text) ∨
      ∃ m, event = .logged m := by
  have hnotable : event ∈ notable events := List.mem_filter.mpr ⟨he, hevent⟩
  rw [h, List.mem_append, List.mem_append, List.mem_singleton] at hnotable
  rcases hnotable with htold' | hnote | hreport
  · exact (htold.launched_or_printed htold').imp_right .inl
  · exact .inr (.inr (quiet_eventsAt limit (failureNote line error) event hnote))
  · exact .inr (.inl ⟨_, hreport⟩)

/-- What is notable in a line tells whether it is contained. -/
theorem contained_of_notable (htold : Builtin.FailureTold table line told)
    (h : notable events = told ++ ((failureNote line error).eventsAt limit ++
      [.printed (failureReport error)])) : Contained table line error limit events := by
  have hquiet := quiet_eventsAt limit (failureNote line error)
  have hnote : ((failureNote line error).eventsAt limit).filterMap Event.warned? =
      if limit ∈ [Level.warning, .info, .debug] then [failureNote line error] else [] := by
    cases limit <;> rfl
  have hlaunched : events.filterMap Event.launched? = told.filterMap Event.launched? := by
    rw [filterMap_of_notable h (by rintro ⟨⟩ <;> simp [Event.isNotable, Event.launched?]),
      hquiet.filterMap_eq_nil fun _ => rfl]
    exact List.append_nil _
  exact {
    launched := by
      rw [hlaunched]
      exact htold.launched_length
    printed := by
      rw [filterMap_of_notable h (by rintro ⟨⟩ <;> simp [Event.isNotable, Event.printed?]),
        hquiet.printed?, htold.printed_eq, hlaunched]
      rfl
    wrote := fun text he => by simpa using cases_of_notable htold h he rfl
    exited := fun code he => by simpa using cases_of_notable htold h he rfl
    warned := by
      rw [filterMap_of_notable h fun _ => warned?_of_not_notable, htold.warned_eq, hnote]
      exact List.append_nil _ }

end Notable

section Line

variable {host : Host} {table : Launcher.Table} {turns : Launch → List Channel} {line : Text}
  {state : State} {w : World}

/-- **A line that fails** with a system error leaves the state as it was and is contained. -/
theorem runLine_failed {error : SystemError}
    (h : ((Builtin.dispatch host (.ofTable table turns) (.ofLine line) state).perform w).1 =
      .error (.system error)) :
    ∃ t events, (runLine host (.ofTable table turns) line state).perform w =
        (.ok state, w.after t events) ∧
      Contained table (.ofLine line) error w.limit events := by
  obtain ⟨before, -, hsplit⟩ := perform_split line w
  have hbefore : notable before = [] := by
    obtain ⟨t, events, hw, hnotable⟩ := (discreet_split line w).of_perform hsplit
    rwa [(World.after_inj hw).2]
  -- the command is carried out in the same tree, and fails there too
  have huniform := (compositional_uniform (.ofTable table turns)).dispatch host (.ofLine line) state
  have hfails : ((Builtin.dispatch host (.ofTable table turns) (.ofLine line) state).perform
      (w.after w.tree before)).1 = .error (.system error) :=
    (huniform.result_eq (World.tree_after w w.tree before)).trans h
  have hdispatch := Prod.fst_eq_iff.mp hfails
  obtain ⟨t, told, hworld, htold⟩ := Builtin.dispatch_tellsAtFailure _ _ _ hdispatch
  have hcommand : (CommandLine.ofLine line).command ≠ [] := by
    intro hnil
    rw [Builtin.perform_dispatch_nil hnil] at h
    exact absurd h (by simp)
  refine ⟨t, before ++ (told ++ ((failureNote (.ofLine line) error).eventsAt w.limit ++
    [.printed (failureReport error)])), ?_, ?_⟩
  · rw [runLine, perform_bind, hsplit]
    dsimp only
    rw [if_neg hcommand, perform_tryCatch, hdispatch, hworld]
    dsimp only
    rw [perform_recover_system]
    simp only [World.tree_after, World.limit_after, World.after_after, List.append_assoc]
  · refine contained_of_notable htold ?_
    have hreport : notable ((failureNote (.ofLine line) error).eventsAt w.limit) =
        (failureNote (.ofLine line) error).eventsAt w.limit := by
      unfold Message.eventsAt
      split <;> rfl
    rw [notable_append, hbefore, notable_append, notable_append, hreport]
    rfl

/-- **Errors are contained** — a line without NUL characters comes to a state exactly if it does
not ask for a target that is too deep, and that is the only fault that it passes on. If its
command ends in a system error, the state stays, what happens is contained, and the steps
behind it are answered as if they were taken from the same state in the tree that is left. -/
theorem runLine_contained (hline : '\x00' ∉ line) (hdirectory : '\x00' ∉ state.directory) :
    let launcher : Launcher := .ofTable table turns
    let ended := (runLine host launcher line state).perform w
    ((∃ next, ended.1 = .ok next) ↔ ¬ AsksTooDeep host state w.tree line) ∧
    (∀ fault, ended.1 = .error fault → fault = .tooDeep) ∧
    ∀ error, ((Builtin.dispatch host launcher (.ofLine line) state).perform w).1 =
        .error (.system error) →
      ∃ t events, ended = (.ok state, w.after t events) ∧
        Contained table (.ofLine line) error w.limit events ∧
        ∀ rest, run host launcher w.limit state w.tree (.line line :: rest) =
          ⟨⟨state, none, none⟩, events, t⟩ :: run host launcher w.limit state t rest := by
  intro launcher ended
  have hbreaks (fault : Fault) : Breaks (runLine host launcher line state) w fault ↔
      fault = .tooDeep ∧ AsksTooDeep host state w.tree line :=
    breaks_runLine_iff_asksTooDeep (Launcher.startsTame_ofTable table turns _) hline hdirectory
  refine ⟨⟨?_, fun hdeep => ?_⟩, fun fault hfault => ?_, fun error herror => ?_⟩
  · rintro ⟨next, hnext⟩ hdeep
    have htooDeep := ((hbreaks .tooDeep).mpr ⟨rfl, hdeep⟩).1
    exact absurd (hnext.symm.trans htooDeep) (by simp)
  · rcases exists_state_or_breaks host launcher line state w with hnext | ⟨fault, hfault⟩
    · exact hnext
    · exact absurd ((hbreaks fault).mp hfault).2 hdeep
  · rcases exists_state_or_breaks host launcher line state w with ⟨next, hnext⟩ | ⟨other, hother⟩
    · exact absurd (hnext.symm.trans hfault) (by simp)
    · obtain rfl : fault = other := Except.error.inj (hfault.symm.trans hother.1)
      exact ((hbreaks fault).mp hother).1
  · obtain ⟨t, events, hended, hcontained⟩ := runLine_failed herror
    refine ⟨t, events, hended, hcontained, fun rest => ?_⟩
    -- a step begins without events, which makes no difference to a line
    have huniform := (compositional_uniform launcher).runLine host line state
    have hstep : (runLine host launcher line state).perform ⟨w.tree, w.limit, []⟩ =
        (.ok state, World.after ⟨w.tree, w.limit, []⟩ t events) :=
      huniform.perform_eq hended rfl rfl
    rw [run, step, hstep]
    rfl

end Line

/-- A program that fails behind its first line, run where warnings are shown. -/
theorem runLine_contained_stream_failed :
    let host : Host := ⟨[], [], none, 990⟩
    let child : Child := ⟨.ofText "one\n" (some ⟨.denied, none⟩), ⟨[], none⟩, 0⟩
    let table : Launcher.Table := [("ls", .ok child)]
    let launcher : Launcher := .ofTable table fun _ => []
    let state : State := ⟨"/", [("PATH", "/bin")]⟩
    let w : World := ⟨Tree.empty.put ["ls", "bin"] (.file [] true), .warning, []⟩
    let ended := (runLine host launcher "ls" state).perform w
    (∃ next, ended.1 = .ok next) ∧
      ∃ t events, ended = (.ok state, w.after t events) ∧
        Contained table (.ofLine "ls") ⟨.denied, none⟩ .warning events := by
  intro host child table launcher state w ended
  obtain ⟨-, -, hcontained⟩ := @runLine_contained host table (fun _ => []) "ls" state w (by decide)
    (by decide)
  obtain ⟨t, events, hended, h, -⟩ := hcontained ⟨.denied, none⟩ (by decide +kernel)
  exact ⟨⟨state, congrArg Prod.fst hended⟩, t, events, hended, h⟩

/-! ## A line that is not contained -/

/-- The line that asks for a file below directories inside one another. -/
def nestedLine (n : Nat) : Text := "pwd > a" ++ Path.nested n

theorem ofLine_nestedLine (n : Nat) :
    CommandLine.ofLine (nestedLine n) = ⟨"pwd", some ('a' :: Path.nested n), none⟩ := by
  have htarget : CommandLine.IsTarget ('a' :: Path.nested n) := by
    refine CommandLine.isTarget_of_not_blank (by simp) fun c hc => ?_
    have hcases : c = '/' ∨ c = 'a' := by
      rcases List.mem_cons.mp hc with hc | hc
      · exact .inr hc
      · exact Path.mem_nested hc
    rcases hcases with rfl | rfl <;> decide
  have hcommand : CommandLine.IsPart "pwd" := ⟨by decide, by decide, by decide⟩
  exact CommandLine.ofLine_of_isTarget hcommand htarget .output

/-- In the root directory the line asks too deep if none of the directories is there. -/
theorem asksTooDeep_nestedLine (host : Host) (environment : Environment) {t : Tree}
    (h : t.at? [['a']] = none) {n : Nat} (hn : host.nestingLimit < n) :
    AsksTooDeep host ⟨"/", environment⟩ t (nestedLine n) := by
  obtain ⟨n, rfl⟩ : ∃ m, n = m + 1 := ⟨n - 1, by omega⟩
  have habove : Path.directoryPart (Target.resolve ('a' :: Path.nested (n + 1)) "/") =
      Path.nested (n + 1) := by
    have hresolve : Target.resolve ('a' :: Path.nested (n + 1)) "/" = Path.nested (n + 2) := rfl
    rw [hresolve, Path.directoryPart, Path.splitLast_nested]
  refine ⟨?_, 'a' :: Path.nested (n + 1), ?_, ?_, ?_⟩
  · rw [ofLine_nestedLine]
    trivial
  · rw [ofLine_nestedLine]
    rfl
  · rw [habove]
    simp [Path.nested]
  · rw [habove]
    exact Tree.lacksAbove_nested _ h (by omega)

/-- The line has no characters but these. -/
theorem not_mem_nestedLine {c : Char} (h : c ∉ ("pwd > a/" : Text)) (n : Nat) :
    c ∉ nestedLine n := by
  intro hmem
  rcases List.mem_append.mp hmem with hmem | hmem
  · exact h (List.mem_append_left ['/'] hmem)
  · rcases Path.mem_nested hmem with rfl | rfl <;> exact h (by decide)

/-- A line without NUL characters that is not contained: it asks for a file below fifteen hundred
directories that are missing. -/
theorem runLine_nested_not_contained :
    let host : Host := ⟨[], [], none, 990⟩
    let launcher : Launcher := .ofTable [] fun _ => []
    let w : World := ⟨Tree.empty, .error, []⟩
    '\x00' ∉ nestedLine 1500 ∧
      ((runLine host launcher (nestedLine 1500) ⟨"/", []⟩).perform w).1 = .error .tooDeep := by
  intro host launcher w
  have hline : '\x00' ∉ nestedLine 1500 := not_mem_nestedLine (by decide) 1500
  have hdirectory : '\x00' ∉ ("/" : Text) := by decide
  have hmissing : w.tree.at? [['a']] = none := by decide
  have hdeep : AsksTooDeep host ⟨"/", []⟩ w.tree (nestedLine 1500) :=
    asksTooDeep_nestedLine host [] hmissing (by decide)
  have hbreaks : Breaks (runLine host launcher (nestedLine 1500) ⟨"/", []⟩) w .tooDeep :=
    (breaks_runLine_iff_asksTooDeep (Launcher.startsTame_ofTable _ _ _) hline hdirectory).mpr
      ⟨rfl, hdeep⟩
  exact ⟨hline, hbreaks.1⟩

end Session
end LineShell
