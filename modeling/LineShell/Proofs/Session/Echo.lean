/-
# LineShell.Proofs.Session.Echo -- `echo` sees what a program would see

A line that begins with `echo` and the same line with the name of a program in its place are
split at the same clause, and behind the first word they have the same words. A program is handed
those words as arguments; `echo` puts single spaces between them and shows that, or writes it to
the output target (`echo_sees_arguments`). Nothing but the name itself is dropped, whatever the
text behind it is, with its quotations closed or open.

What a target opens as depends on the tree alone, and a program is launched only when its targets
are open. So where the program is launched, the target of `echo` opens as well
(`CommandLine.opensAs_of_openSinks`), and the text gets there.
-/

import LineShell.Proofs.CommandLine.FirstWord
import LineShell.Proofs.Session.Described
import LineShell.Proofs.Session.Transparent

namespace LineShell

open Text (IsSolid)

/-! ## The two kinds of command -/

section Commands

variable {name rest text : Text}

/-- What `echo` shows are the words behind its name, which are those of the rest. -/
theorem echoText_append (hrest : rest <+: ' ' :: text) :
    Builtin.echoText ("echo" ++ rest) = [' '].intercalate (words rest) := by
  rw [Builtin.echoText, words_append_of_ordinary (by decide) (by decide) hrest, List.tail_cons]

theorem Verb.ofCommand_echo_append (hrest : rest <+: ' ' :: text) :
    ofCommand ("echo" ++ rest) = .echo := by
  have hexit : ¬ "echo" ++ rest = "exit 0" := by
    intro heq
    exact absurd (List.cons.inj (List.cons.inj heq).2).1 (by decide)
  have hpwd : ¬ "echo" ++ rest = "pwd" := by
    intro heq
    exact absurd (List.cons.inj heq).1 (by decide)
  have hecho : "echo" ++ rest = "echo" ∨ ("echo " : Text).isPrefixOf ("echo" ++ rest) = true := by
    rcases List.prefix_cons_iff.mp hrest with rfl | ⟨more, rfl, -⟩
    · exact .inl (List.append_nil _)
    · exact .inr (List.isPrefixOf_iff_prefix.mpr ⟨more, rfl⟩)
  rw [ofCommand, if_neg hexit, if_neg hpwd, if_pos hecho]

namespace IsPlainName

variable (h : IsPlainName name)
include h

theorem isSolid : IsSolid name := ⟨h.ne_nil, h.not_blank⟩

theorem isOrdinary : IsOrdinary name := by
  intro c hc
  refine ⟨?_, h.not_mark c hc⟩
  rintro rfl
  exact h.space_not_mem hc

theorem words_append (hrest : rest <+: ' ' :: text) : words (name ++ rest) = name :: words rest :=
  words_append_of_ordinary h.ne_nil h.isOrdinary hrest

/-- No builtin is recognised by what stands behind a plain name. -/
theorem not_isBuiltinForm_append (hrest : rest <+: ' ' :: text) :
    ¬ Verb.IsBuiltinForm (name ++ rest) := by
  rcases List.prefix_cons_iff.mp hrest with rfl | ⟨more, rfl, -⟩
  · rw [List.append_nil]
    exact h.not_isBuiltinForm
  -- the first space of the command ends the name, and would end the name of the builtin
  have hspaces : ∀ builtin ∈ builtinNames, ' ' ∉ builtin := by decide
  have hfirst : ∀ builtin ∈ builtinNames, ∀ tail, builtin ++ ' ' :: tail ≠ name ++ ' ' :: more := by
    intro builtin hbuiltin tail heq
    obtain rfl := (Session.append_space_inj (hspaces builtin hbuiltin) h.space_not_mem heq).1
    have hnot : isBuiltin builtin = false := h.not_builtin
    rw [isBuiltin, List.contains_iff_mem.mpr hbuiltin] at hnot
    exact absurd hnot (by simp)
  have hspace : ' ' ∈ name ++ ' ' :: more := by simp
  rintro (hmem | ⟨start, hmem, tail, htail⟩)
  · simp only [List.mem_cons, List.not_mem_nil, or_false] at hmem
    rcases hmem with hexit | hpwd | hecho
    · exact hfirst "exit" (by decide) "0" hexit.symm
    · exact absurd (hpwd ▸ hspace) (by decide)
    · exact absurd (hecho ▸ hspace) (by decide)
  · simp only [List.mem_cons, List.not_mem_nil, or_false] at hmem
    rcases hmem with rfl | rfl | rfl
    · exact hfirst "echo" (by decide) tail htail
    · exact hfirst "type" (by decide) tail htail
    · exact hfirst "cd" (by decide) tail htail

end IsPlainName
end Commands

/-! ## Targets that open -/

/-- A line whose targets are opened in a tree has a target that opens there, or none. -/
theorem CommandLine.opensAs_of_openSinks {host : Host} {line : CommandLine} {directory path : Text}
    {sinks : Sink × Sink} {w w' : World}
    (h : (Program.openSinks host line directory).perform w = (.ok sinks, w'))
    (hpath : line.target? = some path) :
    ∃ handle, Target.OpensAs host path directory w.tree handle := by
  obtain ⟨command, output, error⟩ := line
  obtain ⟨w₁, houtput, herror⟩ := Program.exists_of_openSinks h
  cases output with
  | some target =>
    obtain rfl : target = path := Option.some.inj hpath
    obtain ⟨writer, w₂, hwriter, -⟩ := Action.perform_bind_eq_ok_iff.mp houtput
    exact Target.exists_opensAs hwriter
  | none =>
    -- nothing is opened before the error target
    obtain ⟨-, rfl⟩ := Prod.mk.inj (houtput.symm.trans (Sink.perform_ofTarget_none ..))
    obtain rfl : error = some path := hpath
    obtain ⟨writer, w₂, hwriter, -⟩ := Action.perform_bind_eq_ok_iff.mp herror
    exact Target.exists_opensAs hwriter

namespace Builtin

variable {host : Host} {launcher : Launcher} {line : CommandLine} {state : State} {w : World}

/-- Without an output target the text shows, also where an error target is made. -/
theorem deliver_console (text : Text) (houtput : line.output = none)
    (hopens : ∀ path, line.target? = some path →
      ∃ handle, Target.OpensAs host path state.directory w.tree handle) :
    ∃ t events, (deliver host line state text).perform w = (.ok (), w.after t events) ∧
      Seen.of events = .ofLines [text] [] [] := by
  obtain ⟨command, output, error⟩ := line
  obtain rfl : output = none := houtput
  cases error with
  | none => exact ⟨w.tree, _, perform_deliver_plain command text, Seen.of_printed text⟩
  | some path =>
    obtain ⟨handle, hpath⟩ := hopens path rfl
    obtain ⟨t, events, hunseen, htouch, -⟩ := hpath.perform_touch
    refine ⟨t, events ++ [.printed text], ?_, (hunseen.of_append _).trans (Seen.of_printed text)⟩
    simp only [deliver, Action.perform_bind, htouch, Action.perform_printLine, World.tree_after,
      World.after_after]

/-- With an output target that opens, the text goes there and nothing is seen. -/
theorem deliver_target (text : Text) {path : Text} {handle : Handle}
    (houtput : line.output = some path)
    (hopens : Target.OpensAs host path state.directory w.tree handle) :
    ∃ result t events, Unseen events ∧
      (deliver host line state text).perform w = (result, w.after t events) ∧
      Target.Redirected host.directory (Target.resolve path state.directory) (text ++ ['\n'])
        w.tree t [handle] ∧
      (handle ≠ .device .full → result = .ok ()) := by
  obtain ⟨command, output, error⟩ := line
  obtain rfl : output = some path := houtput
  exact hopens.perform_fill (text ++ ['\n'])

/-- `echo` delivers the words behind its name with single spaces between them. -/
theorem dispatch_echo_append {rest text : Text} (hrest : rest <+: ' ' :: text)
    (output error : Option Text) :
    dispatch host launcher ⟨"echo" ++ rest, output, error⟩ state =
      (deliver host ⟨"echo" ++ rest, output, error⟩ state ([' '].intercalate (words rest)) >>=
        fun _ => pure state) := by
  simp only [dispatch, Verb.ofCommand_echo_append hrest, echoText_append hrest]

/-- A program that is launched by a command is one that the command asks for. -/
theorem launches_of_mem {launch : Launch} {name : Text} {arguments : List Text}
    (hform : ¬ Verb.IsBuiltinForm line.command) (hwords : words line.command = name :: arguments)
    (hbefore : w.events.filterMap Event.launched? = [])
    (hmem : launch ∈ ((dispatch host launcher line state).perform w).2.events.filterMap
      Event.launched?) :
    Launches host line state w launch := by
  have hsafe : ∃ result t events,
      (dispatch host launcher line state).perform w = (result, w.after t events) ∧
        LaunchesSafely host line state w t events := by
    rcases hfound : Search.program w.tree host.directory (Search.pathOf host state.environment)
      name with error | _ | executable
    · exact launchesSafely_of_failed hform hwords hfound
    · exact launchesSafely_of_unresolved hform hwords hfound
    · exact launchesSafely_of_found hform hwords hfound
  obtain ⟨result, t, events, hdispatch, hsafe⟩ := hsafe
  rw [hdispatch, World.events_after, List.filterMap_append, hbefore, List.nil_append] at hmem
  exact (hsafe.mem_iff launch).mp hmem

end Builtin

/-! ## The two lines side by side -/

namespace Session

variable {host : Host} {launcher : Launcher} {limit : Level} {state : State} {tree : Tree}
  {line text : Text} {parsed : CommandLine} {launch : Launch}

/-- Reporting a fault launches nothing. -/
theorem launched?_recover (parsed : CommandLine) (state : State) (fault : Fault) (w : World) :
    ((recover parsed state fault).perform w).2.events.filterMap Event.launched? =
      w.events.filterMap Event.launched? := by
  rcases hfault : fault.isSystem with _ | _
  · rw [perform_recover_of_not_system hfault]
  · obtain ⟨error, rfl⟩ := Fault.exists_system hfault
    rw [perform_recover_system, World.events_after, List.filterMap_append, List.filterMap_append,
      (quiet_eventsAt _ _).launched?]
    exact List.append_nil _

/-- What is launched by a line is asked for by its command, in the tree that the line was given. -/
theorem launches_of_mem_launchedBy {first : Text} {arguments : List Text}
    (hline : CommandLine.ofLine line = parsed) (hform : ¬ Verb.IsBuiltinForm parsed.command)
    (hwords : words parsed.command = first :: arguments)
    (hmem : launch ∈ launchedBy host launcher limit state tree line) :
    ∃ w : World, w.tree = tree ∧ Builtin.Launches host parsed state w launch := by
  obtain ⟨notes, hnotes, hperform⟩ := perform_runLine host launcher line state ⟨tree, limit, []⟩
  have hcommand : ¬ parsed.command = [] := by
    intro hnil
    rw [hnil] at hwords
    exact absurd hwords (by simp)
  let w : World := (⟨tree, limit, []⟩ : World).after tree notes
  have hbefore : w.events.filterMap Event.launched? = [] := hnotes.launched?
  have hlaunched : launch ∈
      ((Builtin.dispatch host launcher parsed state).perform w).2.events.filterMap
        Event.launched? := by
    rw [launchedBy, hperform, hline, if_neg hcommand] at hmem
    rcases hdispatch : (Builtin.dispatch host launcher parsed state).perform w with
      ⟨fault | next, w'⟩ <;> rw [hdispatch] at hmem
    · exact launched?_recover parsed state fault w' ▸ hmem
    · exact hmem
  exact ⟨w, rfl, Builtin.launches_of_mem hform hwords hbefore hlaunched⟩

/-- **Echoes** — a command line puts out a text, on the console or to its output target. `ended` is
what running the line in a tree has come to. -/
structure Echoes (host : Host) (launcher : Launcher) (parsed : CommandLine) (state : State)
    (tree : Tree) (text : Text) (ended : Except Fault State × World) : Prop where
  /-- The text is delivered, whatever the target is. -/
  delivered : Builtin.dispatch host launcher parsed state =
    (Builtin.deliver host parsed state text >>= fun _ => pure state)
  /-- Without an output target, the text is the one line that shows. -/
  shown : parsed.output = none →
    ended.1 = .ok state ∧ Seen.of ended.2.events = .ofLines [text] [] []
  /-- What an output target opens as gets the text and a line feed. Nothing else shows or changes,
  unless the target is the device that is always full. -/
  written : ∀ path, parsed.output = some path → ∃ handle,
    Target.Redirected host.directory (Target.resolve path state.directory) (text ++ ['\n'])
      tree ended.2.tree [handle] ∧
    (handle ≠ .device .full → ended.1 = .ok state ∧ Unseen ended.2.events)

/-- A line that delivers a text echoes it if its target opens. -/
theorem echoes_of_deliver (hline : CommandLine.ofLine line = parsed) (hcommand : parsed.command ≠ [])
    (hdispatch : Builtin.dispatch host launcher parsed state =
      (Builtin.deliver host parsed state text >>= fun _ => pure state))
    (hopens : ∀ path, parsed.target? = some path →
      ∃ handle, Target.OpensAs host path state.directory tree handle) :
    Echoes host launcher parsed state tree text
      ((runLine host launcher line state).perform ⟨tree, limit, []⟩) := by
  obtain ⟨notes, hnotes, hperform⟩ := perform_runLine host launcher line state ⟨tree, limit, []⟩
  let w : World := (⟨tree, limit, []⟩ : World).after tree notes
  have hunseen : Unseen notes := hnotes.preparing.unseen
  rw [hline, if_neg hcommand, hdispatch] at hperform
  refine ⟨hdispatch, fun houtput => ?_, fun path houtput => ?_⟩
  · obtain ⟨t, events, hdeliver, hseen⟩ := Builtin.deliver_console (w := w) text houtput hopens
    rw [Action.perform_bind, hdeliver] at hperform
    rw [hperform]
    exact ⟨rfl, (hunseen.of_append events).trans hseen⟩
  · have htarget : parsed.target? = some path := by
      rw [CommandLine.target?, houtput, Option.some_or]
    obtain ⟨handle, hpath⟩ := hopens path htarget
    obtain ⟨result, t, events, hquiet, hdeliver, hred, hresult⟩ :=
      Builtin.deliver_target (w := w) text houtput hpath
    refine ⟨handle, ?_⟩
    rw [Action.perform_bind, hdeliver] at hperform
    cases result with
    | ok _ =>
      rw [hperform]
      exact ⟨hred, fun _ => ⟨rfl, hunseen.append hquiet⟩⟩
    | error fault =>
      -- the device is full, and reporting that leaves the tree alone
      obtain ⟨reported, later, hrecover, -, -⟩ := recover_cases parsed state fault (w.after t events)
      have hended := hperform.trans hrecover
      rw [hended]
      exact ⟨hred, fun hfull => absurd (hresult hfull) (by simp)⟩

/-- **`echo` sees what a program would see** — for every plain name and every text behind it. The
line with `echo` in the place of the name has the same targets, and the words behind the first one
are the same. Whenever the line with the name launches a program, that program gets these words as
its arguments, and the line with `echo` puts them out with single spaces between them. -/
theorem echo_sees_arguments {name : Text} (h : IsPlainName name) (text : Text) :
    let ran := CommandLine.ofLine (name ++ ' ' :: text)
    let echoed := CommandLine.ofLine ("echo" ++ ' ' :: text)
    ran.output = echoed.output ∧ ran.error = echoed.error ∧
    ∃ arguments, words ran.command = name :: arguments ∧
      words echoed.command = ("echo" : Text) :: arguments ∧
      ∀ (host : Host) (launcher : Launcher) (limit : Level) (state : State) (tree : Tree),
      ∀ launch ∈ launchedBy host launcher limit state tree (name ++ ' ' :: text),
        launch.arguments = name :: arguments ∧
        Echoes host launcher echoed state tree ([' '].intercalate arguments)
          ((runLine host launcher ("echo" ++ ' ' :: text) state).perform ⟨tree, limit, []⟩) := by
  obtain ⟨rest, output, error, hrest, hofLine⟩ := CommandLine.exists_ofLine_eq text
  have hran : CommandLine.ofLine (name ++ ' ' :: text) = ⟨name ++ rest, output, error⟩ :=
    hofLine name h.isSolid
  have hechoed : CommandLine.ofLine ("echo" ++ ' ' :: text) = ⟨"echo" ++ rest, output, error⟩ :=
    hofLine "echo" (by decide)
  have hwords : words (name ++ rest) = name :: words rest := h.words_append hrest
  have hecho : words ("echo" ++ rest) = ("echo" : Text) :: words rest :=
    words_append_of_ordinary (by decide) (by decide) hrest
  dsimp only
  rw [hran, hechoed]
  refine ⟨rfl, rfl, words rest, hwords, hecho, fun host launcher limit state tree launch hmem => ?_⟩
  obtain ⟨w, rfl, hlaunches⟩ :=
    launches_of_mem_launchedBy hran (h.not_isBuiltinForm_append hrest) hwords hmem
  refine ⟨hlaunches.arguments.trans hwords, echoes_of_deliver hechoed (List.cons_ne_nil _ _)
    (Builtin.dispatch_echo_append hrest output error) fun path hpath => ?_⟩
  -- the targets were opened before the program was launched, and those of `echo` are the same
  obtain ⟨sinks, w', hopen⟩ := hlaunches.targets
  exact CommandLine.opensAs_of_openSinks hopen hpath

/-- A quotation that is left open takes in an operator between spaces, up to the one that the line
is split at, and quoting nothing makes no argument. -/
theorem echo_sees_arguments_open_quotation :
    let text : Text := "p \x22\x22 \x27a  b\x22 2> e > out 1"
    let host : Host := ⟨[], [], none, 990⟩
    let launcher := Launcher.ofTable [("x", .ok ⟨.ofText "" none, ⟨[], none⟩, 0⟩)] fun _ => []
    let tree := Tree.empty.put ["x", "bin"] (.file [] true)
    let state : State := ⟨"/", [("PATH", "/bin")]⟩
    let echoed : CommandLine := ⟨"echo p \x22\x22 \x27a  b\x22 2> e", some "out 1", none⟩
    IsPlainName "x" ∧
      launchedBy host launcher .debug state tree ("x" ++ ' ' :: text) =
        [⟨["x", "p", "a  b\x22 2> e"], "/bin/x", "/bin", state.environment⟩] ∧
      Echoes host launcher echoed state tree "p a  b\x22 2> e"
        ((runLine host launcher ("echo" ++ ' ' :: text) state).perform ⟨tree, .debug, []⟩) := by
  intro text host launcher tree state echoed
  have h : IsPlainName "x" := by decide
  have hlaunched : launchedBy host launcher .debug state tree ("x" ++ ' ' :: text) =
      [⟨["x", "p", "a  b\x22 2> e"], "/bin/x", "/bin", state.environment⟩] := by
    decide +kernel
  have hechoed : CommandLine.ofLine ("echo" ++ ' ' :: text) = echoed := by decide +kernel
  obtain ⟨-, -, arguments, -, -, hall⟩ := echo_sees_arguments h text
  obtain ⟨harguments, hechoes⟩ := hall host launcher .debug state tree _
    (hlaunched ▸ List.mem_singleton.mpr rfl)
  obtain rfl : (["p", "a  b\x22 2> e"] : List Text) = arguments := (List.cons.inj harguments).2
  rw [hechoed] at hechoes
  exact ⟨h, hlaunched, hechoes⟩

end Session
end LineShell
