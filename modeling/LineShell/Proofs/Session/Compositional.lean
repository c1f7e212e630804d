/-
# LineShell.Proofs.Session.Compositional -- what holds of all that a session does

A step of a session is put together from a few basic actions: things that are seen happen,
messages are noted, the tree is looked at, targets are opened and closed, programs are
started and drained. The rest is actions in turn, choices, and failures that are dealt with.
A property of actions that the basic ones have and that passes through these
(`Action.Compositional`) therefore holds of every step (`Compositional.step`).

The way from the basic actions to the steps is gone here once, along the definitions. A
property of sessions is proved by what it says of the basic actions.
-/

import LineShell.Proofs.Session.Perform

namespace LineShell

namespace Action

/-- **Compositional** — a property of actions that the basic ones have and that passes
through actions in turn and failures that are dealt with. -/
structure Compositional (launcher : Launcher) (P : (α : Type) → Action α → Prop) : Prop where
  pure {α : Type} (a : α) : P α (pure a)
  throw {α : Type} (fault : Fault) : P α (throw fault)
  bind {α β : Type} {x : Action α} {f : α → Action β} :
    P α x → (∀ a, P β (f a)) → P β (x >>= f)
  tryCatch {α : Type} {x : Action α} {handle : Fault → Action α} :
    P α x → (∀ fault, P α (handle fault)) → P α (tryCatch x handle)
  emit {event : Event} : event.logged? = none → P Unit (emit event)
  note (m : Message) : P Unit (note m)
  tree : P Tree tree
  openWriter (host : Host) (path directory : Text) :
    P Writer (Target.openWriter host path directory)
  closeWriter {α : Type} (w : Writer) (outcome : Except Fault α) :
    P (Except Fault α) (Target.closeWriter w outcome)
  conduct (launch : Launch) (output error : Sink) :
    P (Sink × Sink × Except Fault Int) (Program.conduct launcher launch output error)

namespace Compositional

variable {launcher : Launcher} {P : (α : Type) → Action α → Prop} (h : Compositional launcher P)
include h

/-! ## Actions -/

theorem printLine (line : Text) : P Unit (printLine line) := h.emit rfl

theorem log (level : Level) (text : Text) : P Unit (log level text) := h.note ⟨level, text⟩

theorem ofExcept {α : Type} (result : Except Fault α) : P α (ofExcept result) := by
  cases result with
  | ok a => exact h.pure a
  | error fault => exact h.throw fault

theorem attempt {α : Type} {x : Action α} (hx : P α x) : P (Except Fault α) (attempt x) :=
  h.tryCatch (h.bind hx fun _ => h.pure _) fun _ => h.pure _

/-! ## Targets and sinks -/

theorem fill (host : Host) (path directory text : Text) :
    P Unit (Target.fill host path directory text) :=
  h.bind (h.openWriter host path directory) fun _ =>
    h.bind (h.closeWriter _ _) fun _ => h.ofExcept _

theorem touch (host : Host) (path directory : Text) :
    P Unit (Target.touch host path directory) :=
  h.bind (h.openWriter host path directory) fun _ =>
    h.bind (h.closeWriter _ _) fun _ => h.ofExcept _

theorem ofTarget (host : Host) (directory : Text) (target : Option Text) :
    P Sink (Sink.ofTarget host directory target) := by
  cases target with
  | none => exact h.pure _
  | some path => exact h.bind (h.openWriter host path directory) fun _ => h.pure _

theorem close {α : Type} (sink : Sink) (outcome : Except Fault α) :
    P (Except Fault α) (sink.close outcome) := by
  cases sink with
  | console => exact h.pure outcome
  | target writer => exact h.closeWriter writer outcome

/-! ## Programs -/

theorem find (host : Host) (environment : Environment) (command : Text) :
    P (Option Text) (Program.find host environment command) := by
  refine h.bind h.tree fun t => ?_
  split
  · exact h.throw _
  · exact h.bind (h.log _ _) fun _ => h.pure _
  · split
    · exact h.pure none
    · exact h.bind (h.log _ _) fun _ => h.pure _

theorem runFound (host : Host) (line : CommandLine) (state : State) (name : Text)
    (arguments : List Text) (executable : Text) :
    P Int (Program.runFound host launcher line state name arguments executable) := by
  refine h.bind (h.ofTarget _ _ _) fun output => ?_
  -- an error target that does not open still lets the output be closed
  refine h.bind (h.attempt (h.ofTarget _ _ _)) fun outcome => ?_
  split
  · exact h.bind (h.close _ _) fun _ => h.ofExcept _
  · refine h.bind (h.conduct _ _ _) fun (output', error', outcome') => ?_
    refine h.bind (h.close _ _) fun _ => h.bind (h.close _ _) fun _ => ?_
    exact h.bind (h.ofExcept _) fun status => h.bind (h.note _) fun _ => h.pure _

theorem run (host : Host) (line : CommandLine) (state : State) :
    P (Option Int) (Program.run host launcher line state) := by
  unfold Program.run
  split
  · exact h.pure none
  · refine h.bind (h.find _ _ _) fun found => ?_
    cases found with
    | none => exact h.bind (h.printLine _) fun _ => h.pure none
    | some executable => exact h.bind (h.runFound _ _ _ _ _ _) fun _ => h.pure _

/-! ## Builtins -/

theorem deliver (host : Host) (line : CommandLine) (state : State) (text : Text) :
    P Unit (Builtin.deliver host line state text) := by
  obtain ⟨command, output, error⟩ := line
  cases output with
  | some target => exact h.fill _ _ _ _
  | none =>
    cases error with
    | some target => exact h.bind (h.touch _ _ _) fun _ => h.printLine _
    | none => exact h.printLine _

theorem touchTargets (host : Host) (line : CommandLine) (state : State) :
    P Unit (Builtin.touchTargets host line state) := by
  obtain ⟨command, output, error⟩ := line
  cases output with
  | some target =>
    refine h.bind (h.touch _ _ _) fun _ => ?_
    cases error with
    | some other => exact h.touch _ _ _
    | none => exact h.pure ()
  | none =>
    cases error with
    | some target => exact h.touch _ _ _
    | none => exact h.pure ()

theorem description (host : Host) (state : State) (name : Text) :
    P Text (Builtin.description host state name) := by
  unfold Builtin.description
  split
  · exact h.pure _
  · refine h.bind (h.find _ _ _) fun found => ?_
    cases found with
    | none => exact h.pure _
    | some path => exact h.pure _

theorem changeDirectory (host : Host) (path : Text) (state : State) :
    P State (Builtin.changeDirectory host path state) := by
  refine h.bind h.tree fun t => ?_
  split
  · exact h.bind (h.log _ _) fun _ => h.bind (h.printLine _) fun _ => h.pure state
  · exact h.bind (h.log _ _) fun _ => h.pure _

theorem dispatch (host : Host) (line : CommandLine) (state : State) :
    P State (Builtin.dispatch host launcher line state) := by
  unfold Builtin.dispatch
  split
  · exact h.bind (h.log _ _) fun _ => h.bind (h.emit rfl) fun _ => h.pure state
  · exact h.bind (h.deliver _ _ _ _) fun _ => h.pure state
  · exact h.bind (h.deliver _ _ _ _) fun _ => h.pure state
  · exact h.bind (h.description _ _ _) fun text =>
      h.bind (h.deliver _ _ _ _) fun _ => h.pure state
  · exact h.bind (h.touchTargets _ _ _) fun _ => h.changeDirectory _ _ _
  · exact h.bind (h.run _ _ _) fun _ => h.pure state

/-! ## Lines and steps -/

theorem split (line : Text) : P CommandLine (Session.split line) := by
  unfold Session.split
  dsimp only
  split
  · exact h.bind (h.log _ _) fun _ => h.pure _
  · exact h.pure _

theorem recover (line : CommandLine) (state : State) (fault : Fault) :
    P State (Session.recover line state fault) := by
  cases fault with
  | system error =>
    exact h.bind (h.log _ _) fun _ => h.bind (h.printLine _) fun _ => h.pure state
  | embeddedNul => exact h.throw _
  | badVariableName => exact h.throw _
  | tooDeep => exact h.throw _

theorem runLine (host : Host) (line : Text) (state : State) :
    P State (Session.runLine host launcher line state) := by
  refine h.bind (h.split line) fun parsed => ?_
  split
  · exact h.pure state
  · exact h.tryCatch (h.dispatch host parsed state) (h.recover parsed state)

/-- **A step** has every compositional property. -/
theorem step (host : Host) (state : State) (s : Session.Step) :
    P State (s.action host launcher state) := by
  cases s with
  | line text => exact h.runLine host text state
  | dispatch parsed => exact h.dispatch host parsed state
  | execute parsed => exact h.bind (h.run host parsed state) fun _ => h.pure state

end Compositional
end Action
end LineShell
