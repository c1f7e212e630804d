/-
# LineShell.Proofs.Session.Transparent -- a redirect clause only diverts lines

A command shows lines on the two channels of the console. With a redirect clause behind it
the command does the same, except that the lines of one channel go to the target: they no
longer show, and the file of the target holds them, each ended by a line feed
(`redirection_transparent`). This is so for the builtins that print something and for
programs that run without errors, which deal with targets in different places.

A command is told by what is seen of it (`Seen`). A run with a target is `Diverted` if it is
seen like the plain one without the lines of one channel, and the target holds those.
Splitting the line gives back the command and the target (`CommandLine.ofLine_of_isTarget`),
so a line comes to the same as its parts.
-/

import LineShell.Proofs.CommandLine.LastClause
import LineShell.Proofs.Program.Delivery
import LineShell.Proofs.Session.Levels
import LineShell.Proofs.Session.Redirected

namespace LineShell

/-! ## What is seen -/

namespace Event

/-- The line that shows on a channel of the console. -/
def line? : Channel → Event → Option Text
  | .output => printed?
  | .error => complained?

/-- What happens to a program: it is launched, stopped or waited for. -/
def program? : Event → Option Event
  | launched launch => some (.launched launch)
  | killed => some .killed
  | reaped => some .reaped
  | _ => none

end Event

/-- **Seen** — what there is to see of a run: the lines on each channel of the console, and
what happened to programs. -/
structure Seen where
  lines : Channel → List Text
  programs : List Event

namespace Seen

def of (events : List Event) : Seen :=
  ⟨fun channel => events.filterMap (Event.line? channel), events.filterMap Event.program?⟩

/-- The same without the lines of one channel. -/
def without (seen : Seen) (channel : Channel) : Seen :=
  { seen with lines := fun other => if other = channel then [] else seen.lines other }

/-- Given lines on the two channels. -/
def ofLines (output error : List Text) (programs : List Event) : Seen :=
  ⟨fun | .output => output | .error => error, programs⟩

section OfLines

variable (output error : List Text) (programs : List Event)

@[simp] theorem lines_ofLines_output : (ofLines output error programs).lines .output = output :=
  rfl

@[simp] theorem lines_ofLines_error : (ofLines output error programs).lines .error = error := rfl

@[simp] theorem without_ofLines_output :
    (ofLines output error programs).without .output = ofLines [] error programs := by
  simp only [without, ofLines, Seen.mk.injEq, and_true]
  exact funext fun channel => by cases channel <;> rfl

@[simp] theorem without_ofLines_error :
    (ofLines output error programs).without .error = ofLines output [] programs := by
  simp only [without, ofLines, Seen.mk.injEq, and_true]
  exact funext fun channel => by cases channel <;> rfl

end OfLines

theorem of_eq_ofLines (events : List Event) :
    of events = ofLines (events.filterMap Event.printed?) (events.filterMap Event.complained?)
      (events.filterMap Event.program?) := by
  simp only [of, ofLines, Seen.mk.injEq, and_true]
  exact funext fun channel => by cases channel <;> rfl

@[simp] theorem of_printed (line : Text) : of [.printed line] = ofLines [line] [] [] :=
  of_eq_ofLines _

end Seen

/-- **Unseen** — no line shows, and nothing happens to a program. -/
def Unseen (events : List Event) : Prop := Seen.of events = .ofLines [] [] []

theorem unseen_nil : Unseen [] := Seen.of_eq_ofLines []

/-- Messages, openings and closings are not seen. -/
theorem unseen_of_forall {events : List Event}
    (h : ∀ event ∈ events, (∃ m, event = .logged m) ∨ (∃ handle, event = .opened handle) ∨
      ∃ handle, event = .closed handle) : Unseen events := by
  have hview : ∀ event ∈ events, event.printed? = none ∧ event.complained? = none ∧
      event.program? = none := by
    intro event he
    obtain ⟨m, rfl⟩ | ⟨handle, rfl⟩ | ⟨handle, rfl⟩ := h event he <;> exact ⟨rfl, rfl, rfl⟩
  rw [Unseen, Seen.of_eq_ofLines, List.filterMap_eq_nil_iff.mpr fun event he => (hview event he).1,
    List.filterMap_eq_nil_iff.mpr fun event he => (hview event he).2.1,
    List.filterMap_eq_nil_iff.mpr fun event he => (hview event he).2.2]

theorem Preparing.unseen {events : List Event} (h : Preparing events) : Unseen events :=
  unseen_of_forall fun event he => (h event he).imp_right .inl

theorem Concluding.unseen {events : List Event} (h : Concluding events) : Unseen events :=
  unseen_of_forall fun event he => (h event he).imp_right .inr

namespace Unseen

variable {first second : List Event}

theorem of_append (h : Unseen first) (second : List Event) :
    Seen.of (first ++ second) = Seen.of second := by
  obtain ⟨hlines, hprograms⟩ := Seen.mk.inj h
  simp only [Seen.of, List.filterMap_append, hprograms, List.nil_append, Seen.mk.injEq, and_true]
  refine funext fun channel => ?_
  rw [congrFun hlines channel]
  cases channel <;> rfl

theorem programs (h : Unseen first) : first.filterMap Event.program? = [] := (Seen.mk.inj h).2

theorem append (h : Unseen first) (h' : Unseen second) : Unseen (first ++ second) :=
  (h.of_append second).trans h'

end Unseen

/-! ## Targets that open -/

namespace Target

variable {host : Host} {path directory : Text} {t : Tree} {place : Location} {handle : Handle}
  {writer : Writer} {w w' : World}

/-- **Opens as** — in a tree, the target opens as a handle. -/
def OpensAs (host : Host) (path directory : Text) (t : Tree) (handle : Handle) : Prop :=
  ∀ w : World, w.tree = t →
    ((openWriter host path directory).perform w).1 = .ok ⟨handle, [], .empty⟩

/-- What a target opens as depends on the tree alone. -/
theorem opensAs_of_perform
    (h : ((openWriter host path directory).perform w).1 = .ok ⟨handle, [], .empty⟩) :
    OpensAs host path directory w.tree handle :=
  fun _ htree => ((uniform_openWriter host path directory).result_eq htree).trans h

/-- A target that is opened once opens as some handle. -/
theorem exists_opensAs (h : (openWriter host path directory).perform w = (.ok writer, w')) :
    ∃ handle, OpensAs host path directory w.tree handle := by
  obtain ⟨t, events, -, ⟨fault, hopen, -⟩ | ⟨handle, hopen, -⟩⟩ :=
    openWriter_cases host path directory w
  · exact absurd (congrArg Prod.fst (h.symm.trans hopen)) (by simp)
  · exact ⟨handle, opensAs_of_perform (congrArg Prod.fst hopen)⟩

namespace OpensAs

variable (h : OpensAs host path directory w.tree handle)
include h

/-- A target that opens as a file is empty then. -/
theorem perform_openWriter : ∃ t events, Preparing events ∧
    (openWriter host path directory).perform w =
      (.ok ⟨handle, [], .empty⟩, w.after t events) ∧
    Redirected host.directory (resolve path directory) [] w.tree t [handle] := by
  have hresult := h w rfl
  obtain ⟨t, events, hquiet, ⟨fault, hopen, -⟩ | ⟨other, hopen, hred⟩⟩ :=
    openWriter_cases host path directory w <;> rw [hopen] at hresult
  · exact absurd hresult (by simp)
  · obtain rfl : other = handle := (Writer.mk.inj (Except.ok.inj hresult)).1
    exact ⟨t, _, hquiet.preparing.append (preparing_opened _), hopen, hred⟩

/-- Nothing is seen of filling a target. It succeeds, but for the device that is always full. -/
theorem perform_fill (text : Text) : ∃ result t events, Unseen events ∧
    (fill host path directory text).perform w = (result, w.after t events) ∧
    Redirected host.directory (resolve path directory) text w.tree t [handle] ∧
    (handle ≠ .device .full → result = .ok ()) := by
  obtain ⟨t, events, hbefore, hopen, hred⟩ := h.perform_openWriter
  let written := Writer.write ⟨handle, [], .empty⟩ text
  let outcome : Except Fault Unit := if written.2 then .ok () else .error (.ofCause .noSpace)
  -- the writer holds the text and nothing else when it is closed
  have htext : written.1.text = text := Writer.text_write ⟨handle, [], .empty⟩ text
  have hflush := hred.flushed written.1
  rw [htext] at hflush
  refine ⟨written.1.settled outcome, written.1.flushedTo t, _,
    hbefore.unseen.append (concluding_closed [handle]).unseen, ?_, hflush, fun hfull => ?_⟩
  · simp only [fill, Action.perform_bind, hopen, perform_closeWriter, Action.perform_ofExcept,
      World.after_after]
    rfl
  · have hdone : written.2 = true := Writer.write_of_accepts (decide_eq_true hfull) text
    have hsettled : written.1.settled outcome = outcome :=
      Writer.settled_of_accepts (decide_eq_true hfull) outcome
    exact hsettled.trans (if_pos hdone)

/-- Touching a target succeeds, and nothing is seen of it. -/
theorem perform_touch : ∃ t events, Unseen events ∧
    (touch host path directory).perform w = (.ok (), w.after t events) ∧
    Redirected host.directory (resolve path directory) [] w.tree t [handle] := by
  obtain ⟨t, events, hbefore, hopen, hred⟩ := h.perform_openWriter
  refine ⟨_, _, hbefore.unseen.append (concluding_closed [handle]).unseen, ?_,
    Redirected.flushed ⟨handle, [], .empty⟩ hred⟩
  simp only [touch, Action.perform_bind, hopen, perform_closeWriter, Action.perform_ofExcept,
    World.after_after, Writer.settled_empty]
  rfl

end OpensAs

/-- **Opens** — in a tree, the target opens as the file at a place. -/
def Opens (host : Host) (path directory : Text) (t : Tree) (place : Location) : Prop :=
  ∀ w : World, w.tree = t →
    ((openWriter host path directory).perform w).1 = .ok ⟨.file place, [], .empty⟩

/-- What a target opens as depends on the tree alone. -/
theorem opens_of_perform
    (h : ((openWriter host path directory).perform w).1 = .ok ⟨.file place, [], .empty⟩) :
    Opens host path directory w.tree place :=
  opensAs_of_perform h

namespace Opens

variable (h : Opens host path directory w.tree place)
include h

/-- A file is a handle like the others. -/
theorem opensAs : OpensAs host path directory w.tree (.file place) := h

/-- Filling a file always succeeds. -/
theorem perform_fill (text : Text) : ∃ t events, Unseen events ∧
    (fill host path directory text).perform w = (.ok (), w.after t events) ∧
    Redirected host.directory (resolve path directory) text w.tree t [.file place] := by
  obtain ⟨result, t, events, hunseen, hfill, hred, hresult⟩ := h.opensAs.perform_fill text
  obtain rfl := hresult (by simp)
  exact ⟨t, events, hunseen, hfill, hred⟩

end Opens
end Target

/-! ## Runs with a target -/

/-- **Diverted** — an action with a target came to a result. It was seen like the plain one, but
without the lines of one channel, and those are what the file of the target holds. -/
def Diverted {α : Type} (host : Host) (directory path : Text) (place : Location)
    (channel : Channel) (seen : Seen) (a : α) (w : World) (ended : Except Fault α × World) :
    Prop :=
  ∃ t events, ended = (.ok a, w.after t events) ∧ Seen.of events = seen.without channel ∧
    Target.Redirected host.directory (Target.resolve path directory)
      (Text.ofLines (seen.lines channel)) w.tree t [.file place]

namespace Diverted

variable {α β : Type} {host : Host} {directory path : Text} {place : Location}
  {channel : Channel} {seen : Seen} {a : α} {w : World}

/-- What comes before and is not seen changes nothing. -/
theorem behind {x : Action β} {f : β → Action α} {b : β} {events : List Event}
    (hx : x.perform w = (.ok b, w.after w.tree events)) (hunseen : Unseen events)
    (h : Diverted host directory path place channel seen a (w.after w.tree events)
      ((f b).perform (w.after w.tree events))) :
    Diverted host directory path place channel seen a w ((x >>= f).perform w) := by
  obtain ⟨t, later, hperform, hseen, hred⟩ := h
  refine ⟨t, events ++ later, ?_, (hunseen.of_append later).trans hseen, hred⟩
  rw [Action.perform_bind, hx]
  exact hperform.trans (by rw [World.after_after])

/-- A result that is put in the place of another. -/
theorem bind_pure {x : Action α} (b : β)
    (h : Diverted host directory path place channel seen a w (x.perform w)) :
    Diverted host directory path place channel seen b w ((x >>= fun _ => pure b).perform w) := by
  obtain ⟨t, events, hperform, hseen, hred⟩ := h
  exact ⟨t, events, by rw [Action.perform_bind, hperform]; rfl, hseen, hred⟩

end Diverted

/-! ### Builtins -/

namespace Builtin

variable {host : Host} {state : State} {path : Text} {place : Location} {w : World}

theorem perform_deliver_plain (command text : Text) :
    (deliver host (.plain command) state text).perform w =
      (.ok (), w.after w.tree [.printed text]) := rfl

/-- The line of a builtin goes to an output target; an error target stays empty. -/
theorem deliver_diverted (hopens : Target.Opens host path state.directory w.tree place)
    (command text : Text) (channel : Channel) :
    Diverted host state.directory path place channel (.of [.printed text]) () w
      ((deliver host (.redirected command channel path) state text).perform w) := by
  cases channel with
  | output =>
    obtain ⟨t, events, hunseen, hfill, hred⟩ := hopens.perform_fill (text ++ ['\n'])
    refine ⟨t, events, hfill, by simpa [Unseen] using hunseen, ?_⟩
    simpa [Text.ofLines] using hred
  | error =>
    obtain ⟨t, events, hunseen, htouch, hred⟩ := hopens.opensAs.perform_touch
    refine ⟨t, events ++ [.printed text], ?_, by simpa using hunseen.of_append [.printed text], ?_⟩
    · simp only [deliver, CommandLine.redirected, Action.perform_bind, htouch]
      simp
    · simpa [Text.ofLines] using hred

end Builtin

/-! ### Programs -/

/-- The stream of a program that goes down a channel. -/
def Child.stream (child : Child) : Channel → Stream
  | .output => child.output
  | .error => child.error

/-- What is seen of a program that runs without errors, by what its sinks show. -/
theorem seen_of_run {child : Child} {launch : Launch} {shown complaints : List Text}
    {before events after : List Event} (hbefore : Preparing before) (hafter : Concluding after)
    (htogether : Together child.output child.error shown complaints events)
    (hruns : ∀ channel, (child.stream channel).failure = none) :
    Seen.of (before ++ .launched launch :: (events ++ .reaped :: after)) =
      .ofLines shown complaints [.launched launch, .reaped] := by
  -- without a failure the drains show lines and nothing else
  have hkills : child.output.kills = [] ∧ child.error.kills = [] := by
    simp only [Stream.kills, show child.output.failure = none from hruns .output,
      show child.error.failure = none from hruns .error, and_self]
  have hprograms : events.filterMap Event.program? = [] := by
    rw [htogether.filterMap_left] <;>
      simp [hkills, List.filterMap_map, Function.comp_def, Event.program?]
  rw [Seen.of_eq_ofLines]
  congr 1
  · simp [hbefore.silent.printed?, hafter.silent.printed?, htogether.printed?,
      List.filterMap_cons, Event.printed?]
  · simp [hbefore.silent.complained?, hafter.silent.complained?, htogether.complained?,
      List.filterMap_cons, Event.complained?]
  · simp [hbefore.unseen.programs, hafter.unseen.programs, hprograms,
      Event.program?]

namespace Program

section Run

variable {host : Host} {table : Launcher.Table} {state : State} {command name executable : Text}
  {arguments : List Text} {child : Child} {w : World}

/-- A program that runs without errors shows what its sinks do not take. -/
theorem perform_run_clean (line : CommandLine) {output error : Sink} {w₁ w₂ w₃ : World}
    (turns : Launch → List Channel)
    (hwords : words line.command = name :: arguments)
    (hfind : (find host state.environment name).perform w = (.ok (some executable), w₁))
    (houtput : (Sink.ofTarget host state.directory line.output).perform w₁ = (.ok output, w₂))
    (herror : (Sink.ofTarget host state.directory line.error).perform w₂ = (.ok error, w₃))
    (hout : output.accepts = true) (herr : error.accepts = true)
    (hchild : table.behaviour executable = .ok child)
    (hruns : ∀ channel, (child.stream channel).failure = none) :
    ∃ events, (run host (.ofTable table turns) line state).perform w =
        (.ok (some child.status), w.after ((output.filled child.output.lines).flushedTo
          ((error.filled child.error.lines).flushedTo w₃.tree)) events) ∧
      Seen.of events = .ofLines (output.shown child.output.lines) (error.shown child.error.lines)
        [.launched (launchOf state (name :: arguments) executable), .reaped] := by
  obtain ⟨before, after, hbefore, hafter, -, hrun⟩ :=
    perform_run_started hwords hfind houtput herror hout herr
      (Launcher.start_ofTable_of_ok turns w₃.tree _ hchild)
  rw [Child.outcome_of_ended (hruns .output) (hruns .error)] at hrun
  exact ⟨_, hrun, seen_of_run hbefore hafter (Draining.complete_start child hout herr _).2 hruns⟩

variable (hwords : words command = name :: arguments)
  (hfound : Search.program w.tree host.directory (Search.pathOf host state.environment) name =
    .ok (some executable))
  (hchild : table.behaviour executable = .ok child)
  (hruns : ∀ channel, (child.stream channel).failure = none)
include hwords hfound hchild hruns

/-- Without a target it shows the lines of both streams. -/
theorem perform_run_plain (turns : Launch → List Channel) :
    ∃ t events, (run host (.ofTable table turns) (.plain command) state).perform w =
        (.ok (some child.status), w.after t events) ∧
      Seen.of events = .ofLines child.output.lines child.error.lines
        [.launched (launchOf state (name :: arguments) executable), .reaped] := by
  have hfind := perform_find host state.environment name w
  rw [hfound] at hfind
  obtain ⟨events, hrun, hseen⟩ := perform_run_clean (.plain command) turns hwords hfind
    (Sink.perform_ofTarget_none ..) (Sink.perform_ofTarget_none ..) rfl rfl hchild hruns
  exact ⟨_, events, hrun, hseen⟩

/-- With a target the lines of one stream go there. -/
theorem run_diverted {path : Text} {place : Location}
    (hopens : Target.Opens host path state.directory w.tree place) (turns : Launch → List Channel)
    (channel : Channel) :
    Diverted host state.directory path place channel
      (.ofLines child.output.lines child.error.lines
        [.launched (launchOf state (name :: arguments) executable), .reaped])
      (some child.status) w
      ((run host (.ofTable table turns) (.redirected command channel path) state).perform w) := by
  have hfind := perform_find host state.environment name w
  rw [hfound] at hfind
  -- the target is opened behind the look-up, which leaves the tree alone
  obtain ⟨t, _, -, hopen, hred⟩ :=
    Target.OpensAs.perform_openWriter (w := w.after w.tree (findNotes _ _ _)) hopens
  have hsink := Sink.perform_ofTarget_some hopen
  have htook := fun lines => (Sink.Took.filled lines _).redirected hred
  cases channel with
  | output =>
    obtain ⟨events, hrun, hseen⟩ := perform_run_clean (.redirected command .output path) turns
      hwords hfind hsink (Sink.perform_ofTarget_none ..) rfl rfl hchild hruns
    refine ⟨_, events, hrun, ?_, htook child.output.lines⟩
    rw [hseen, Seen.without_ofLines_output]
    rfl
  | error =>
    obtain ⟨events, hrun, hseen⟩ := perform_run_clean (.redirected command .error path) turns
      hwords hfind (Sink.perform_ofTarget_none ..) hsink rfl rfl hchild hruns
    refine ⟨_, events, hrun, ?_, htook child.error.lines⟩
    rw [hseen, Seen.without_ofLines_error]
    rfl

end Run
end Program

/-! ### Commands -/

namespace Builtin

/-- **Commands that print** — the builtins that show a text, and the programs that are found and
run without errors. -/
inductive Prints (host : Host) (table : Launcher.Table) (state : State) (t : Tree)
    (command : Text) : Prop
  | echo : Verb.ofCommand command = .echo → Prints host table state t command
  | printDirectory : Verb.ofCommand command = .printDirectory → Prints host table state t command
  | describe {name : Text} :
      Verb.ofCommand command = .describe name → Prints host table state t command
  | program {name executable : Text} {arguments : List Text} {child : Child} :
      Verb.ofCommand command = .program → words command = name :: arguments →
      Search.program t host.directory (Search.pathOf host state.environment) name =
        .ok (some executable) →
      table.behaviour executable = .ok child →
      (∀ channel, (child.stream channel).failure = none) → Prints host table state t command

section Dispatch

variable {host : Host} {table : Launcher.Table} {turns : Launch → List Channel} {state next : State}
  {command path : Text} {place : Location} {w : World} {t : Tree} {events : List Event}

/-- A builtin that prints a text does the same with a target, but for its line, also where
something that is not seen came before. -/
theorem deliver_eq_diverted {text : Text} {notes : List Event} {w₁ : World}
    (hopens : Target.Opens host path state.directory w.tree place) (hnotes : Unseen notes)
    (hw₁ : w₁ = w.after w.tree notes)
    (hplain : (deliver host (.plain command) state text >>= fun _ => pure state).perform w₁ =
      (.ok next, w.after t events)) (channel : Channel) :
    Diverted host state.directory path place channel (.of events) next w₁
      ((deliver host (.redirected command channel path) state text >>= fun _ =>
        pure state).perform w₁) := by
  obtain ⟨rfl, hworld⟩ := Action.eq_of_perform_bind_pure (perform_deliver_plain command text) hplain
  subst hw₁
  rw [World.after_after] at hworld
  obtain ⟨-, rfl⟩ := World.after_inj hworld
  rw [hnotes.of_append]
  exact (deliver_diverted (w := w.after w.tree notes) hopens command text channel).bind_pure _

/-- **A command that prints** does the same with a target, but for the lines that go there. -/
theorem dispatch_diverted (hprints : Prints host table state w.tree command)
    (hplain : (dispatch host (.ofTable table turns) (.plain command) state).perform w =
      (.ok next, w.after t events))
    (hopens : Target.Opens host path state.directory w.tree place)
    (turns' : Launch → List Channel) (channel : Channel) :
    Diverted host state.directory path place channel (.of events) next w
      ((dispatch host (.ofTable table turns') (.redirected command channel path) state).perform
        w) := by
  simp only [dispatch, CommandLine.command_redirected, CommandLine.command_plain] at hplain ⊢
  cases hprints with
  | echo hverb =>
    simp only [hverb] at hplain ⊢
    exact deliver_eq_diverted hopens unseen_nil w.after_self.symm hplain channel
  | printDirectory hverb =>
    simp only [hverb] at hplain ⊢
    exact deliver_eq_diverted hopens unseen_nil w.after_self.symm hplain channel
  | @describe name hverb =>
    simp only [hverb] at hplain ⊢
    obtain ⟨notes, hquiet, hdescription⟩ := perform_description host state name w
    have hunseen := hquiet.preparing.unseen
    rw [Action.perform_bind, hdescription] at hplain
    rcases hdescribed : described host state w.tree name with e | text <;>
      rw [hdescribed] at hplain hdescription
    · -- a look-up that fails would have failed without a target, too
      exact absurd (Prod.ext_iff.mp hplain).1 (by simp [Except.mapError])
    · exact .behind hdescription hunseen (deliver_eq_diverted hopens hunseen rfl hplain channel)
  | program hverb hwords hfound hchild hruns =>
    simp only [hverb] at hplain ⊢
    obtain ⟨t', events', hrun, hseen⟩ :=
      Program.perform_run_plain hwords hfound hchild hruns turns
    obtain ⟨rfl, hworld⟩ := Action.eq_of_perform_bind_pure hrun hplain
    obtain ⟨-, rfl⟩ := World.after_inj hworld
    rw [hseen]
    exact (Program.run_diverted hwords hfound hchild hruns hopens turns' channel).bind_pure _

end Dispatch
end Builtin

/-! ## Lines -/

namespace Session

variable {host : Host} {table : Launcher.Table} {turns : Launch → List Channel}
  {state next : State} {command path : Text} {place : Location} {w : World} {t : Tree}
  {events : List Event}

/-- **Redirection is transparent** — a line that is put together from a command that prints, an
operator and a target does what the command does without the target. The lines of the
channel that is redirected do not show, and are all that the file of the target holds;
everything else is seen as before. -/
theorem redirection_transparent (operator : Operator) (turns' : Launch → List Channel)
    (hcommand : CommandLine.IsPart command) (htarget : CommandLine.IsTarget path)
    (hprints : Builtin.Prints host table state w.tree command)
    (hplain : (Builtin.dispatch host (.ofTable table turns) (.plain command) state).perform w =
      (.ok next, w.after t events))
    (hopens : ((Target.openWriter host path state.directory).perform w).1 =
      .ok ⟨.file place, [], .empty⟩) :
    let line := command ++ ' ' :: (operator.written ++ ' ' :: path)
    ∃ t' events', (runLine host (.ofTable table turns') line state).perform w =
        (.ok next, w.after t' events') ∧
      Seen.of events' = (Seen.of events).without operator.channel ∧
      t'.locate host.directory (Target.resolve path state.directory) = .ok place ∧
      ∃ executable, t'.at? place =
        some (.file (Text.ofLines ((Seen.of events).lines operator.channel)) executable) := by
  intro line
  obtain ⟨notes, hquiet, hline⟩ := perform_runLine host (.ofTable table turns') line state w
  rw [CommandLine.ofLine_of_isTarget hcommand htarget, CommandLine.command_redirected,
    if_neg hcommand.ne_nil] at hline
  -- the messages about the split come first, and change nothing of what the command does
  have huniform := Action.compositional_uniform (.ofTable table turns)
  have hplain' := (huniform.dispatch host (.plain command) state).perform_eq hplain
    (w.tree_after w.tree notes) (w.limit_after w.tree notes)
  have hfile : Target.Opens host path state.directory w.tree place :=
    Target.opens_of_perform hopens
  obtain ⟨t', events', hdiverted, hseen, hred⟩ :=
    Builtin.dispatch_diverted (w := w.after w.tree notes) hprints hplain' hfile turns'
      operator.channel
  rw [hdiverted, World.after_after] at hline
  exact ⟨t', notes ++ events', hline, (hquiet.preparing.unseen.of_append events').trans hseen,
    hred.locate_of_mem (by simp), hred.at?_of_mem (by simp)⟩

/-- A command that looks redirected itself: what is read as a clause inside it is printed, and
the line behind goes to a target with a blank in its name. -/
theorem redirection_transparent_inner_clause :
    let host : Host := ⟨[], [], none, 990⟩
    let state : State := ⟨"/", []⟩
    let w : World := ⟨Tree.empty, .debug, []⟩
    ∀ turns, ∃ t events,
      (runLine host (.ofTable [] turns) "echo a > b 1> out 2" state).perform w =
        (.ok state, w.after t events) ∧
      Seen.of events = .ofLines [] [] [] ∧
      t.locate [] "/out 2" = .ok ["out 2"] ∧
      ∃ executable, t.at? ["out 2"] = some (.file "a > b\n" executable) := by
  intro host state w turns
  let command : Text := "echo a > b"
  let target : Text := "out 2"
  have hcommand : CommandLine.IsPart command := by constructor <;> decide
  have htarget : CommandLine.IsTarget target := by
    have htrimmed : Text.IsTrimmed target := by decide
    refine ⟨⟨by decide, by decide, htrimmed⟩, fun operator blank rest _ heq => ?_, ?_⟩
    · cases operator <;> simp [target, Operator.written] at heq
    · intro position hclause
      have hnone : ∀ position < target.length, (CommandLine.clauseAt
          (target.take position).reverse (target.drop position)).isSome = false := by
        decide +kernel
      obtain ⟨hlt, hfound⟩ := (CommandLine.hasClauseAt_iff htrimmed).mp hclause
      exact absurd hfound (by rw [hnone position hlt]; simp)
  have hverb : Verb.ofCommand command = .echo := by decide
  have hplain : (Builtin.dispatch host (.ofTable [] turns) (.plain command) state).perform w =
      (.ok state, w.after w.tree [.printed "a > b"]) := by
    have htext : Builtin.echoText command = "a > b" := by decide +kernel
    rw [← htext]
    simp only [Builtin.dispatch, CommandLine.command_plain, hverb]
    rfl
  have hopens : ((Target.openWriter host target state.directory).perform w).1 =
      .ok ⟨.file ["out 2"], [], .empty⟩ := by decide +kernel
  obtain ⟨t, events, hline, hseen, hlocate, hfile⟩ := redirection_transparent .numberedOutput turns
    hcommand htarget (.echo hverb) hplain hopens
  rw [Seen.of_printed] at hseen hfile
  exact ⟨t, events, hline, hseen.trans (Seen.without_ofLines_output _ _ _), hlocate, hfile⟩

end Session

end LineShell
