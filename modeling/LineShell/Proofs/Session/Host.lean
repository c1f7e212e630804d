/-
# LineShell.Proofs.Session.Host -- a session apart from the process it runs in

The process that a session runs in has a working directory and variables of its own, and a
user with a home directory. A state is self-contained if it never falls back on them: its
working directory is absolute, it has a home directory, and it has a search path whose
directories are absolute. A session that begins in such a state gives the same answers whatever
they are (`run_eq_of_isSelfContained`), and whatever launcher it has.

Each action of a session asks for paths in three ways, and each is settled once. A redirect
target is taken from the working directory, a program from a directory of the search path,
and both are absolute then; a directory to change to is the home directory or is taken from
the working directory. What remains is that the state stays self-contained: a directory that
is changed to is a location of the tree, and variables never change.
-/

import LineShell.Proofs.Session.Directory
import LineShell.Proofs.Tree.Absolute
import LineShell.Launcher.Table

namespace LineShell

/-- **Self-contained** — nothing that the state leaves open is looked up in the host. -/
structure State.IsSelfContained (state : State) : Prop where
  directory : Path.isAbsolute state.directory = true
  home : ∃ home, state.environment.value? "HOME" = some home
  searchPath : ∃ path, state.environment.value? "PATH" = some path ∧
    ∀ directory ∈ Search.directories (some path), Path.isAbsolute directory = true

/-! ## Targets -/

section Targets

variable {directory : Text} (h : Path.isAbsolute directory = true) {host other : Host}
  (hlimit : host.nestingLimit = other.nestingLimit)
include h hlimit

/-- A target is absolute once it is taken from an absolute directory. -/
theorem Target.openWriter_eq_of_isAbsolute (path : Text) :
    openWriter host path directory = openWriter other path directory := by
  have htarget : Path.isAbsolute (resolve path directory) = true := Path.isAbsolute_join h path
  have habove := Path.isAbsolute_directoryPart htarget
  unfold openWriter
  dsimp only
  rw [hlimit, Tree.makeDirectoriesWithin_eq_of_isAbsolute habove host.directory other.directory,
    Tree.openFile_eq_of_isAbsolute htarget host.directory other.directory]

theorem Target.fill_eq_of_isAbsolute (path text : Text) :
    fill host path directory text = fill other path directory text := by
  unfold fill
  rw [openWriter_eq_of_isAbsolute h hlimit path]

theorem Target.touch_eq_of_isAbsolute (path : Text) :
    touch host path directory = touch other path directory := by
  unfold touch
  rw [openWriter_eq_of_isAbsolute h hlimit path]

theorem Sink.ofTarget_eq_of_isAbsolute (target : Option Text) :
    ofTarget host directory target = ofTarget other directory target := by
  cases target with
  | none => rfl
  | some path =>
    unfold ofTarget
    dsimp only
    rw [Target.openWriter_eq_of_isAbsolute h hlimit path]

end Targets

/-! ## Lookups -/

namespace State.IsSelfContained

section Lookups

variable {state : State} (h : state.IsSelfContained) (host other : Host)
include h

/-- The search path is the state's own. -/
theorem pathOf_eq :
    Search.pathOf host state.environment = state.environment.value? "PATH" := by
  obtain ⟨path, hpath, -⟩ := h.searchPath
  rw [Search.pathOf, hpath]
  rfl

/-- The home directory is the state's own. -/
theorem home_eq : state.home host = state.home other := by
  obtain ⟨home, hhome⟩ := h.home
  rw [State.home, State.home, hhome]
  rfl

theorem program_eq (t : Tree) (command : Text) :
    Search.program t host.directory (Search.pathOf host state.environment) command =
      Search.program t other.directory (Search.pathOf other state.environment) command := by
  obtain ⟨path, hpath, hdirectories⟩ := h.searchPath
  rw [h.pathOf_eq host, h.pathOf_eq other, hpath]
  exact Search.program_eq_of_isAbsolute host.directory other.directory hdirectories

theorem find_eq (command : Text) :
    Program.find host state.environment command =
      Program.find other state.environment command := by
  unfold Program.find
  simp only [h.program_eq host other]

theorem description_eq (name : Text) :
    Builtin.description host state name = Builtin.description other state name := by
  unfold Builtin.description
  rw [h.find_eq host other]

/-- A directory to change to is found from the working directory, which is absolute. -/
theorem searchDirectory_eq (t : Tree) (path : Text) :
    Search.directory t host.directory path state.directory =
      Search.directory t other.directory path state.directory := by
  have hwanted := Path.isAbsolute_join h.directory path
  unfold Search.directory
  dsimp only
  rw [Tree.locate_eq_of_isAbsolute hwanted host.directory other.directory]

theorem changeDirectory_eq (path : Text) :
    Builtin.changeDirectory host path state = Builtin.changeDirectory other path state := by
  unfold Builtin.changeDirectory
  simp only [h.home_eq host other, h.searchDirectory_eq host other]

end Lookups

/-! ## Actions -/

section Actions

variable {state : State} (h : state.IsSelfContained) {host other : Host}
  (hlimit : host.nestingLimit = other.nestingLimit)
include h hlimit

theorem runFound_eq (launcher : Launcher) (line : CommandLine) (name : Text)
    (arguments : List Text) (executable : Text) :
    Program.runFound host launcher line state name arguments executable =
      Program.runFound other launcher line state name arguments executable := by
  unfold Program.runFound
  simp only [Sink.ofTarget_eq_of_isAbsolute h.directory hlimit]

theorem runProgram_eq (launcher : Launcher) (line : CommandLine) :
    Program.run host launcher line state = Program.run other launcher line state := by
  unfold Program.run
  simp only [h.find_eq host other, h.runFound_eq hlimit]

theorem deliver_eq (line : CommandLine) (text : Text) :
    Builtin.deliver host line state text = Builtin.deliver other line state text := by
  unfold Builtin.deliver
  simp only [Target.fill_eq_of_isAbsolute h.directory hlimit,
    Target.touch_eq_of_isAbsolute h.directory hlimit]

theorem touchTargets_eq (line : CommandLine) :
    Builtin.touchTargets host line state = Builtin.touchTargets other line state := by
  unfold Builtin.touchTargets
  simp only [Target.touch_eq_of_isAbsolute h.directory hlimit]

theorem dispatch_eq (launcher : Launcher) (line : CommandLine) :
    Builtin.dispatch host launcher line state = Builtin.dispatch other launcher line state := by
  unfold Builtin.dispatch
  simp only [h.deliver_eq hlimit, h.touchTargets_eq hlimit, h.description_eq host other,
    h.changeDirectory_eq host other, h.runProgram_eq hlimit]

theorem runLine_eq (launcher : Launcher) (line : Text) :
    Session.runLine host launcher line state = Session.runLine other launcher line state := by
  unfold Session.runLine
  simp only [h.dispatch_eq hlimit]

/-- **A step** does the same in every process. -/
theorem step_eq (launcher : Launcher) (s : Session.Step) (w : World) :
    Session.step host launcher state s w = Session.step other launcher state s w := by
  cases s with
  | line text => rw [Session.step, Session.step, h.runLine_eq hlimit]
  | dispatch line => rw [Session.step, Session.step, h.dispatch_eq hlimit]
  | execute line => rw [Session.step, Session.step, h.runProgram_eq hlimit]

end Actions

end State.IsSelfContained

/-! ## States -/

/-- A directory that is found is told by an absolute path. -/
theorem Search.isAbsolute_of_directory_eq {t : Tree} {base : Location}
    {path directory found : Text} (h : Search.directory t base path directory = some found) :
    Path.isAbsolute found = true := by
  unfold Search.directory at h
  dsimp only at h
  split at h
  · exact absurd h (by simp)
  · split at h
    · rename_i place _
      split at h
      · obtain rfl := Option.some.inj h
        exact place.isAbsolute_toPath
      · exact absurd h (by simp)
    · exact absurd h (by simp)

namespace Session

/-- A state that moves stays self-contained. -/
theorem Moves.isSelfContained {host : Host} {line : CommandLine} {state next : State} {t : Tree}
    (hmoves : Moves host line state t next) (h : state.IsSelfContained) :
    next.IsSelfContained := by
  have henvironment := hmoves.environment_eq
  constructor
  · rcases hmoves with rfl | ⟨path, directory, -, hfound, rfl⟩
    · exact h.directory
    · exact Search.isAbsolute_of_directory_eq hfound
  · rw [henvironment]
    exact h.home
  · rw [henvironment]
    exact h.searchPath

/-- **The process around a session** — its working directory, its variables and the home
directory of its user do not show in any answer, if the session begins in a self-contained
state: not in the states, the exit statuses and the faults, not in what happens, and not in the
trees. -/
theorem run_eq_of_isSelfContained {state : State} (h : state.IsSelfContained) (host : Host)
    (directory : Location) (environment : Environment) (accountHome : Option Text)
    (launcher : Launcher) (limit : Level) (tree : Tree) (steps : List Step) :
    run host launcher limit state tree steps =
      run { host with directory, environment, accountHome } launcher limit state tree steps := by
  induction steps generalizing state tree with
  | nil => rfl
  | cons s rest ih =>
    -- the first step is the same, and what it leads to is self-contained again
    let other : Host := { host with directory, environment, accountHome }
    have hlimit : host.nestingLimit = other.nestingLimit := rfl
    have hstep := h.step_eq hlimit launcher s ⟨tree, limit, []⟩
    have hmoves := moves_step host launcher state s ⟨tree, limit, []⟩
    have hrest := ih (hmoves.isSelfContained h) (step host launcher state s ⟨tree, limit, []⟩).2.tree
    rw [hstep] at hrest
    unfold run
    rw [hstep]
    exact congrArg (_ :: ·) hrest

/-- A session that redirects, goes to a home directory that is a link, and runs a program, in
a process at the root without variables and in one that stands elsewhere and has others. -/
theorem run_eq_of_isSelfContained_two_hosts :
    let state : State := ⟨"/", [("HOME", "way"), ("PATH", "/bin: :/dev/")]⟩
    let host : Host := ⟨[], [], none, 990⟩
    let other : Host := ⟨["tmp"], [("HOME", "/root"), ("PATH", "bin")], some "/home", 990⟩
    let launcher := Launcher.ofTable [("x", .ok ⟨⟨["a"], none⟩, ⟨["b"], none⟩, 1⟩)] fun _ => []
    let tree := (Tree.empty.put ["way"] (.link "dev")).put ["x", "bin"] (.file [] true)
    let steps : List Step :=
      [.line "echo a > new/b", .line "cd ~", .line "x 2>> log", .execute (.plain "../bin/x y")]
    state.IsSelfContained ∧
      run host launcher .debug state tree steps = run other launcher .debug state tree steps := by
  intro state host other launcher tree steps
  have h : state.IsSelfContained := ⟨rfl, ⟨_, rfl⟩, ⟨_, rfl, by decide⟩⟩
  exact ⟨h, run_eq_of_isSelfContained h host other.directory other.environment other.accountHome
    launcher .debug tree steps⟩

end Session
end LineShell
