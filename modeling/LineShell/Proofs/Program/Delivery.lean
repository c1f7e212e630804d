/-
# LineShell.Proofs.Program.Delivery -- every line of a program reaches its sink

A program that is found, whose targets open and take what is written to them, has its two
streams delivered whole: the output sink gets exactly the lines of the output and the error
sink exactly those of the errors, in order, also when either stream ends in a failure. The
main statement (`streams_delivered`) is about every schedule of the two drains and gives
what shows on the console, what the target files hold, how often the program was stopped
and waited for, and the result. No part of that mentions the schedule, and the whole tree
is the same for any two of them.

The run is put together in `perform_run`. Its events are those of the two drains in some
interleaving (`Together`), between events that are neither lines nor stops nor waits
(`Silent`). What an interleaving shows on a channel, and how often it stops the program, does
not depend on which one it is.
-/

import LineShell.Launcher.Table
import LineShell.Proofs.Program.Perform
import Mathlib.Control.Monad.Basic
import Mathlib.Data.Prod.Basic

namespace LineShell

/-! ## Texts and their lines -/

namespace Text

/-- The text with a line feed at its end, unless it is empty or ends in one. -/
def ended (t : Text) : Text :=
  if t = [] ∨ t.getLast? = some '\n' then t else t ++ ['\n']

/-- The lines of a text, each ended, are the text with its last line ended. -/
theorem ofLines_lines (t : Text) : ofLines (lines t) = t.ended := by
  induction t with
  | nil => rfl
  | cons c rest ih =>
    by_cases hc : c = '\n'
    · subst hc
      have hstep : ofLines (lines ('\n' :: rest)) = '\n' :: ofLines (lines rest) := by
        simp [lines, ofLines]
      rw [hstep, ih]
      cases rest with
      | nil => rfl
      | cons d more => by_cases hlast : (d :: more).getLast? = some '\n' <;> simp_all [ended]
    · cases rest with
      | nil => simp [lines, ofLines, ended, hc]
      | cons d more =>
        have hstep : ofLines (lines (c :: d :: more)) = c :: ofLines (lines (d :: more)) := by
          rw [lines, if_neg hc]
          split
          · rename_i hnil
            rw [hnil] at ih
            by_cases hlast : (d :: more).getLast? = some '\n' <;> simp_all [ended, ofLines]
          · rename_i hcons
            simp [hcons, ofLines]
        rw [hstep, ih]
        by_cases hlast : (d :: more).getLast? = some '\n' <;> simp_all [ended]

end Text

/-! ## Events that deliver nothing -/

namespace Event

/-- The event is neither a line nor has to do with the end of a program. -/
def isSilent : Event → Bool
  | logged _ | launched _ | opened _ | closed _ => true
  | _ => false

end Event

/-- **Silent** — no line shows, and no program is stopped or waited for. -/
def Silent (events : List Event) : Prop := ∀ event ∈ events, event.isSilent = true

theorem Preparing.silent {events : List Event} (h : Preparing events) : Silent events := by
  intro event he
  obtain ⟨m, rfl⟩ | ⟨handle, rfl⟩ := h event he <;> rfl

theorem Concluding.silent {events : List Event} (h : Concluding events) : Silent events := by
  intro event he
  obtain ⟨m, rfl⟩ | ⟨handle, rfl⟩ := h event he <;> rfl

namespace Silent

variable {first second events : List Event}

theorem append (h : Silent first) (h' : Silent second) : Silent (first ++ second) :=
  List.forall_mem_append.mpr ⟨h, h'⟩

theorem printed? (h : Silent events) : events.filterMap Event.printed? = [] := by
  rw [List.filterMap_eq_nil_iff]
  intro event he
  have := h event he
  cases event <;> simp_all [Event.isSilent, Event.printed?]

theorem complained? (h : Silent events) : events.filterMap Event.complained? = [] := by
  rw [List.filterMap_eq_nil_iff]
  intro event he
  have := h event he
  cases event <;> simp_all [Event.isSilent, Event.complained?]

theorem count_eq_zero (h : Silent events) (event : Event) (hevent : event.isSilent = false) :
    events.count event = 0 := by
  rw [List.count_eq_zero]
  intro he
  rw [h event he] at hevent
  exact absurd hevent (by simp)

end Silent

/-! ## Sinks that were filled -/

namespace Sink

@[simp] theorem place?_filled (lines : List Text) (sink : Sink) :
    (sink.filled lines).place? = sink.place? := by
  cases sink with
  | console => rfl
  | target writer =>
    have hhandle := writer.handle_writeLines lines
    obtain ⟨handle, pieces, buffer⟩ := writer
    simp only [filled, place?]
    rcases h : Writer.writeLines ⟨handle, pieces, buffer⟩ lines with ⟨handle', pieces', buffer'⟩
    rw [h] at hhandle
    obtain rfl : handle' = handle := hhandle
    cases handle' <;> rfl

/-- An empty file holds, once its sink is flushed, the lines that were written. -/
theorem at?_flushedTo_filled {t : Tree} {place : Location} {executable : Bool}
    (h : t.at? place = some (.file [] executable)) (lines : List Text) :
    ((filled lines (.target ⟨.file place, [], .empty⟩)).flushedTo t).at? place =
      some (.file (Text.ofLines lines) executable) := by
  have htext : (Writer.writeLines ⟨.file place, [], .empty⟩ lines).text = Text.ofLines lines :=
    Writer.text_writeLines _ lines
  have hhandle := Writer.handle_writeLines ⟨.file place, [], .empty⟩ lines
  simp only [filled, flushedTo, Writer.flushedTo, hhandle, htext]
  exact Tree.at?_writeFile_of_empty h _ _

end Sink

/-! ## A whole run -/

namespace Stream

variable (s : Stream)

@[simp] theorem printed?_kills : s.kills.filterMap Event.printed? = [] := by
  unfold kills
  cases s.failure <;> rfl

@[simp] theorem complained?_kills : s.kills.filterMap Event.complained? = [] := by
  unfold kills
  cases s.failure <;> rfl

@[simp] theorem count_killed_kills : s.kills.count .killed = s.failure.toList.length := by
  unfold kills
  cases s.failure <;> rfl

@[simp] theorem count_reaped_kills : s.kills.count .reaped = 0 := by
  unfold kills
  cases s.failure <;> rfl

end Stream

/-! ## What two drains show together -/

section Together

variable {output error : Stream} {shown complaints : List Text} {events : List Event}

/-- Interleaved events of an output and of errors. -/
abbrev Together (output error : Stream) (shown complaints : List Text) (events : List Event) :
    Prop :=
  Interleave (shown.map .printed ++ output.kills) (complaints.map .complained ++ error.kills)
    events

namespace Together

theorem printed? (h : Together output error shown complaints events) :
    events.filterMap Event.printed? = shown := by
  rw [h.filterMap_left Event.printed? (by
    rw [List.filterMap_append, printed?_map_complained, Stream.printed?_kills, List.nil_append])]
  rw [List.filterMap_append, printed?_map_printed, Stream.printed?_kills, List.append_nil]

theorem complained? (h : Together output error shown complaints events) :
    events.filterMap Event.complained? = complaints := by
  rw [h.filterMap_right Event.complained? (by
    rw [List.filterMap_append, complained?_map_printed, Stream.complained?_kills,
      List.nil_append])]
  rw [List.filterMap_append, complained?_map_complained, Stream.complained?_kills,
    List.append_nil]

/-- Each stream that fails stops the program once. -/
theorem count_killed (h : Together output error shown complaints events) :
    events.count .killed = output.failure.toList.length + error.failure.toList.length := by
  rw [h.count_eq .killed, List.count_append, List.count_append, count_map_eq_zero _ (by simp),
    count_map_eq_zero _ (by simp), Stream.count_killed_kills, Stream.count_killed_kills,
    Nat.zero_add, Nat.zero_add]

theorem count_reaped (h : Together output error shown complaints events) :
    events.count .reaped = 0 := by
  rw [h.count_eq .reaped, List.count_append, List.count_append, count_map_eq_zero _ (by simp),
    count_map_eq_zero _ (by simp), Stream.count_reaped_kills, Stream.count_reaped_kills]

end Together
end Together

/-- **Delivered** — what there is to see once a program has been run: its result, the lines
on the console, the texts in the target files, and how often it was stopped and waited
for. -/
structure Child.Delivered (child : Child) (output error : Sink) (w : World)
    (ended : Except Fault (Option Int) × World) : Prop where
  result : ended.1 = child.outcome.map some
  printed : ended.2.events.filterMap Event.printed? =
    w.events.filterMap Event.printed? ++ output.shown child.output.lines
  complained : ended.2.events.filterMap Event.complained? =
    w.events.filterMap Event.complained? ++ error.shown child.error.lines
  output_file : ∀ place, output.place? = some place → ∃ executable,
    ended.2.tree.at? place = some (.file (Text.ofLines child.output.lines) executable)
  error_file : ∀ place, error.place? = some place → ∃ executable,
    ended.2.tree.at? place = some (.file (Text.ofLines child.error.lines) executable)
  killed : ended.2.events.count .killed = w.events.count .killed +
    (child.output.failure.toList.length + child.error.failure.toList.length)
  reaped : ended.2.events.count .reaped = w.events.count .reaped + 1

namespace Program

section Run

variable {host : Host} {table : Launcher.Table} {line : CommandLine} {state : State}
  {name executable : Text} {arguments : List Text} {child : Child} {output error : Sink}
  {w w₁ w₂ w₃ : World}

/-- A found program whose targets open and take what is written to them is launched,
drained, waited for and left, in this order. -/
theorem perform_run (turns : Launch → List Channel)
    (hwords : words line.command = name :: arguments)
    (hfind : (find host state.environment name).perform w = (.ok (some executable), w₁))
    (hchild : table.behaviour executable = .ok child)
    (houtput : (Sink.ofTarget host state.directory line.output).perform w₁ = (.ok output, w₂))
    (herror : (Sink.ofTarget host state.directory line.error).perform w₂ = (.ok error, w₃))
    (hout : output.accepts = true) (herr : error.accepts = true) :
    ∃ before events after, Silent before ∧ Silent after ∧
      Together child.output child.error (output.shown child.output.lines)
        (error.shown child.error.lines) events ∧
      (run host (.ofTable table turns) line state).perform w =
        (child.outcome.map some,
          w.after ((output.filled child.output.lines).flushedTo
              ((error.filled child.error.lines).flushedTo w₃.tree))
            (before ++ (events ++ .reaped :: after))) := by
  let launch := launchOf state (name :: arguments) executable
  obtain ⟨before, after, hbefore, hafter, -, hrun⟩ :=
    perform_run_started hwords hfind houtput herror hout herr
      (Launcher.start_ofTable_of_ok turns w₃.tree _ hchild)
  refine ⟨before ++ [.launched launch], _, after, ?_, hafter.silent,
    (Draining.complete_start child hout herr (turns launch)).2, ?_⟩
  · exact hbefore.silent.append (by simp [Silent, Event.isSilent])
  · rw [hrun, List.append_assoc, List.singleton_append]
    rfl

/-- **Delivery** — whatever the schedule, every line of a program reaches the sink of its
stream, in order, also when the other stream fails, and the rest is the same as well. -/
theorem streams_delivered
    (hwords : words line.command = name :: arguments)
    (hfind : (find host state.environment name).perform w = (.ok (some executable), w₁))
    (hchild : table.behaviour executable = .ok child)
    (houtput : (Sink.ofTarget host state.directory line.output).perform w₁ = (.ok output, w₂))
    (herror : (Sink.ofTarget host state.directory line.error).perform w₂ = (.ok error, w₃))
    (hout : output.accepts = true) (herr : error.accepts = true)
    (hplaces : ∀ place, output.place? = some place → error.place? ≠ some place) :
    (∀ turns, child.Delivered output error w
      ((run host (.ofTable table turns) line state).perform w)) ∧
    (∀ turns turns', ((run host (.ofTable table turns) line state).perform w).2.tree =
      ((run host (.ofTable table turns') line state).perform w).2.tree) ∧
    (∀ turns place text failure, child.output = .ofText text failure →
      output.place? = some place → ∃ executable,
      ((run host (.ofTable table turns) line state).perform w).2.tree.at? place =
        some (.file text.ended executable)) ∧
    (∀ turns place text failure, child.error = .ofText text failure →
      error.place? = some place → ∃ executable,
      ((run host (.ofTable table turns) line state).perform w).2.tree.at? place =
        some (.file text.ended executable)) := by
  have hrun := fun turns => perform_run turns hwords hfind hchild houtput herror hout herr
  obtain ⟨t, _, _, rfl, -, hopened⟩ := Sink.of_ofTarget_eq_ok houtput
  obtain ⟨t', _, _, rfl, hopening, hopened'⟩ := Sink.of_ofTarget_eq_ok herror
  simp only [World.tree_after] at hopening hrun
  have hall : ∀ turns, child.Delivered output error w
      ((run host (.ofTable table turns) line state).perform w) := by
    intro turns
    obtain ⟨before, events, after, hbefore, hafter, hevents, hrun⟩ := hrun turns
    rw [hrun]
    refine ⟨rfl, ?_, ?_, ?_, ?_, ?_, ?_⟩
    · simp [hbefore.printed?, hafter.printed?, hevents.printed?, List.filterMap_cons,
        Event.printed?]
    · simp [hbefore.complained?, hafter.complained?, hevents.complained?, List.filterMap_cons,
        Event.complained?]
    · -- the output was opened first, and is flushed last
      intro place hplace
      obtain ⟨rfl, executable, hempty⟩ := hopened place hplace
      have hother : place ∉ error.place?.toList := by simpa using hplaces place hplace
      have hkept := hopening.at?_file hother hempty
      have hflushed := ((error.filled child.error.lines).frame_flushedTo t').at?_file
        (by simpa using hother) hkept
      exact ⟨executable, Sink.at?_flushedTo_filled hflushed _⟩
    · intro place hplace
      obtain ⟨rfl, executable, hempty⟩ := hopened' place hplace
      have hother : place ∉ (output.filled child.output.lines).place?.toList := by
        rw [Sink.place?_filled, Option.mem_toList]
        exact fun hout => hplaces place hout hplace
      have hflushed := Sink.at?_flushedTo_filled hempty child.error.lines
      exact ⟨executable, ((output.filled child.output.lines).frame_flushedTo _).at?_file hother
        hflushed⟩
    · simp [hbefore.count_eq_zero .killed rfl, hafter.count_eq_zero .killed rfl,
        hevents.count_killed]
    · simp [hbefore.count_eq_zero .reaped rfl, hafter.count_eq_zero .reaped rfl,
        hevents.count_reaped]
  refine ⟨hall, fun turns turns' => ?_, ?_, ?_⟩
  · obtain ⟨_, _, _, -, -, -, hfirst⟩ := hrun turns
    obtain ⟨_, _, _, -, -, -, hsecond⟩ := hrun turns'
    rw [hfirst, hsecond]
    rfl
  · intro turns place text failure htext hplace
    rw [← Text.ofLines_lines]
    simpa [htext, Stream.ofText] using (hall turns).output_file place hplace
  · intro turns place text failure htext hplace
    rw [← Text.ofLines_lines]
    simpa [htext, Stream.ofText] using (hall turns).error_file place hplace

end Run

/-- A program whose output fails after two lines and whose errors go to a file of their own. -/
theorem streams_delivered_failing_output :
    let host : Host := ⟨[], [], none, 990⟩
    let state : State := ⟨"/", [("PATH", "/bin")]⟩
    let child : Child := ⟨.ofText "one\ntwo" (some ⟨.denied, none⟩), .ofText "three\n" none, 0⟩
    let table : Launcher.Table := [("ls", .ok child)]
    let line : CommandLine := ⟨"ls", some "out", some "err"⟩
    let w : World := ⟨Tree.empty.put ["ls", "bin"] (.file [] true), .quiet, []⟩
    let sink (name : Text) : Sink := .target ⟨.file [name], [], .empty⟩
    ∀ turns, child.Delivered (sink "out") (sink "err") w
      ((run host (.ofTable table turns) line state).perform w) := by
  intro host state child table line w sink
  let w₁ := ((find host state.environment "ls").perform w).2
  let w₂ := ((Sink.ofTarget host state.directory line.output).perform w₁).2
  have hfind : ((find host state.environment "ls").perform w).1 = .ok (some "/bin/ls") := by
    decide +kernel
  have houtput : ((Sink.ofTarget host state.directory line.output).perform w₁).1 =
      .ok (sink "out") := by decide +kernel
  have herror : ((Sink.ofTarget host state.directory line.error).perform w₂).1 =
      .ok (sink "err") := by decide +kernel
  have hwords : words line.command = [("ls" : Text)] := by decide +kernel
  have hchild : table.behaviour "/bin/ls" = .ok child := by decide +kernel
  have hplaces : ∀ place, (sink "out").place? = some place → (sink "err").place? ≠ some place := by
    intro place hout
    obtain rfl : [("out" : Text)] = place := Option.some.inj hout
    decide
  exact (streams_delivered hwords (Prod.fst_eq_iff.mp hfind) hchild (Prod.fst_eq_iff.mp houtput)
    (Prod.fst_eq_iff.mp herror) rfl rfl hplaces).1

end Program

end LineShell
