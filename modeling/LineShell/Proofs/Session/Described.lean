/-
# LineShell.Proofs.Session.Described -- what `type` says of a name is what running it does

`type` and running a name take different ways. `type` is recognised by the text of its line and
takes the rest of it for the name; a name by itself is split into words, and the first word is
looked up. Both ways lead to one look-up of one name, if the name is plain: it has no white
space and no marks of quoting, and is no builtin. An operator that is part of it stays part of
it, since there is no white space around it.

So `type` tells what running the name does (`type_tells_running`). It tells a path exactly if
running the name launches the program at that path. It tells that nothing was found exactly if
running the name launches nothing and says the same in its own words. Where the look-up fails,
both report that and launch nothing. That no program is launched has to be said for the second
case: a program is free to print the line that the shell prints for a command that is not
found (`not_found_printed_by_program`).
-/

import LineShell.Proofs.Session.Launches

namespace LineShell

/-! ## Lines with little white space -/

namespace CommandLine

/-- White space stands on both sides of an operator. -/
theorem Clause.IsProper.two_le_countP {c : Clause} (h : c.IsProper) :
    2 ≤ c.written.countP Text.isBlank := by
  have hgap : 0 < c.gap.countP Text.isBlank := by
    obtain ⟨blank, more, hgap⟩ := List.exists_cons_of_ne_nil h.gap_ne_nil
    have hmem : blank ∈ c.gap := hgap ▸ List.mem_cons_self
    exact List.countP_pos_iff.mpr ⟨blank, hmem, List.all_eq_true.mp h.gap_blank _ hmem⟩
  have hsecond : 0 < c.secondGap.countP Text.isBlank := by
    obtain ⟨blank, more, hgap⟩ := List.exists_cons_of_ne_nil h.secondGap_ne_nil
    have hmem : blank ∈ c.secondGap := hgap ▸ List.mem_cons_self
    exact List.countP_pos_iff.mpr ⟨blank, hmem, List.all_eq_true.mp h.secondGap_blank _ hmem⟩
  simp only [Clause.written, List.countP_append]
  omega

/-- A trimmed line with one white space at most has no clause. -/
theorem ofLine_of_countP_le_one {line : Text} (htrimmed : Text.IsTrimmed line)
    (h : line.countP Text.isBlank ≤ 1) : ofLine line = plain line := by
  have hclause : ∀ position, ¬ HasClauseAt (Text.trim line) position := by
    rw [htrimmed.trim_eq]
    rintro position ⟨c, hproper, rfl, -⟩
    have htwo := hproper.two_le_countP
    omega
  rw [ofLine_of_no_clause hclause, htrimmed.trim_eq]

end CommandLine

/-! ## Plain names -/

/-- **Plain name** — a name that stands for itself on a command line and is no builtin. -/
structure IsPlainName (name : Text) : Prop where
  ne_nil : name ≠ []
  not_blank : ∀ c ∈ name, Text.isBlank c = false
  not_mark : ∀ c ∈ name, c ≠ '\x27' ∧ c ≠ '\x22' ∧ c ≠ '\\'
  not_builtin : isBuiltin name = false

theorem isPlainName_iff {name : Text} : IsPlainName name ↔
    name ≠ [] ∧ name.all (! Text.isBlank ·) = true ∧
      name.all (fun c => c ≠ '\x27' ∧ c ≠ '\x22' ∧ c ≠ '\\') = true ∧ isBuiltin name = false := by
  simp only [List.all_eq_true, Bool.not_eq_true', decide_eq_true_eq]
  exact ⟨fun h => ⟨h.ne_nil, h.not_blank, h.not_mark, h.not_builtin⟩,
    fun h => ⟨h.1, h.2.1, h.2.2.1, h.2.2.2⟩⟩

instance (name : Text) : Decidable (IsPlainName name) := decidable_of_iff' _ isPlainName_iff

namespace IsPlainName

variable {name : Text} (h : IsPlainName name)
include h

theorem isTrimmed : Text.IsTrimmed name :=
  (CommandLine.isTarget_of_not_blank h.ne_nil h.not_blank).trimmed

theorem countP_eq_zero : name.countP Text.isBlank = 0 := by
  rw [List.countP_eq_zero]
  intro c hc
  simp [h.not_blank c hc]

theorem ofLine_eq : CommandLine.ofLine name = .plain name := by
  refine CommandLine.ofLine_of_countP_le_one h.isTrimmed ?_
  rw [h.countP_eq_zero]
  exact Nat.zero_le 1

/-- The one space of the line stands in front of the name. -/
theorem ofLine_type_eq : CommandLine.ofLine ("type " ++ name) = .plain ("type " ++ name) := by
  have htype : Text.IsTrimmed "type" := by decide
  have htrimmed : Text.IsTrimmed ("type " ++ name) :=
    htype.append h.isTrimmed (by decide) h.ne_nil [' ']
  refine CommandLine.ofLine_of_countP_le_one htrimmed ?_
  have hone : ("type " : Text).countP Text.isBlank = 1 := by decide
  rw [List.countP_append, h.countP_eq_zero, hone]

/-- The scanner takes every character for itself. -/
theorem words_eq : words name = [name] := by
  have hscan : ∀ t : Text, (∀ c ∈ t, c ∈ name) → scan .bare t = (t, []) := by
    intro t ht
    induction t with
    | nil => rfl
    | cons c rest ih =>
      have hc : c ∈ name := ht c List.mem_cons_self
      have hspace : c ≠ ' ' := by
        rintro rfl
        exact absurd (h.not_blank _ hc) (by decide)
      obtain ⟨hsingle, hdouble, hbackslash⟩ := h.not_mark c hc
      have hrest := ih fun d hd => ht d (List.mem_cons_of_mem _ hd)
      simp [scan, Mode.breaks, Mode.next, Mode.kept, hspace, hsingle, hdouble, hbackslash, hrest]
  obtain ⟨c, rest, rfl⟩ := List.exists_cons_of_ne_nil h.ne_nil
  rw [words, hscan _ fun _ hd => hd]
  rfl

theorem space_not_mem : ' ' ∉ name := by
  intro hmem
  exact absurd (h.not_blank _ hmem) (by decide)

/-- Every form of a builtin is a name of one or has a space. -/
theorem not_isBuiltinForm : ¬ Verb.IsBuiltinForm name := by
  have hspace := h.space_not_mem
  have hname : name ∉ builtinNames := by
    have hbuiltin := h.not_builtin
    rw [isBuiltin] at hbuiltin
    simpa using hbuiltin
  rintro (hmem | ⟨start, hmem, hstart⟩)
  · simp only [List.mem_cons, List.not_mem_nil, or_false] at hmem
    rcases hmem with rfl | rfl | rfl
    · exact hspace (by decide)
    · exact hname (by decide)
    · exact hname (by decide)
  · refine hspace (hstart.subset ?_)
    simp only [List.mem_cons, List.not_mem_nil, or_false] at hmem
    rcases hmem with rfl | rfl | rfl <;> decide

/-- `type` takes the name from the line as it stands. -/
theorem ofCommand_type_eq : Verb.ofCommand ("type " ++ name) = .describe name := by
  have hprefix : ("type " : Text).isPrefixOf? ("type " ++ name) = some name :=
    List.isPrefixOf?_eq_some_iff_append_eq.mpr rfl
  -- no other form begins with this letter
  have hfirst : ∀ {c : Char} {rest : Text}, "type " ++ name = c :: rest → c = 't' := by
    intro c rest heq
    exact (List.cons.inj heq).1.symm
  have hecho : ¬ ("type " ++ name = "echo" ∨
      ("echo " : Text).isPrefixOf ("type " ++ name) = true) := by
    rintro (heq | hstart)
    · exact absurd (hfirst heq) (by decide)
    · obtain ⟨rest, hrest⟩ := List.isPrefixOf_iff_prefix.mp hstart
      exact absurd (hfirst hrest.symm) (by decide)
  have hexit : ¬ "type " ++ name = "exit 0" := fun heq => absurd (hfirst heq) (by decide)
  have hpwd : ¬ "type " ++ name = "pwd" := fun heq => absurd (hfirst heq) (by decide)
  rw [Verb.ofCommand, if_neg hexit, if_neg hpwd, if_neg hecho, hprefix]
  exact congrArg Verb.describe h.isTrimmed.trim_eq

end IsPlainName

/-! ## Lines that say one thing -/

namespace Session

open LineShell.Action

/-- **Says** — the line prints one text, and apart from messages that is all that happens. -/
def Says (host : Host) (launcher : Launcher) (line : Text) (state : State) (w : World)
    (text : Text) : Prop :=
  ∃ notes, Quiet notes ∧ (runLine host launcher line state).perform w =
    (.ok state, w.after w.tree (notes ++ [.printed text]))

section Says

variable {host : Host} {launcher : Launcher} {line command name : Text} {state : State} {w : World}

/-- A command that prints one text makes its line say it. -/
theorem says_of_ok {text : Text} (hline : CommandLine.ofLine line = .plain command)
    (hne : command ≠ [])
    (h : ∀ w₁ : World, w₁.tree = w.tree → ∃ notes, Quiet notes ∧
      (Builtin.dispatch host launcher (.plain command) state).perform w₁ =
        (.ok state, w₁.after w₁.tree (notes ++ [.printed text]))) :
    Says host launcher line state w text := by
  obtain ⟨before, hbefore, hperform⟩ := perform_runLine host launcher line state w
  obtain ⟨notes, hnotes, hdispatch⟩ := h (w.after w.tree before) rfl
  have hcommand : ¬ (CommandLine.plain command).command = [] := hne
  rw [hline, if_neg hcommand, hdispatch] at hperform
  refine ⟨before ++ notes, hbefore.append hnotes, hperform.trans ?_⟩
  simp only [World.tree_after, World.after_after, List.append_assoc]

/-- A command that fails with a system error, and does nothing else, makes its line say so. -/
theorem says_of_error {error : SystemError} (hline : CommandLine.ofLine line = .plain command)
    (hne : command ≠ [])
    (h : ∀ w₁ : World, w₁.tree = w.tree → ∃ notes, Quiet notes ∧
      (Builtin.dispatch host launcher (.plain command) state).perform w₁ =
        (.error (.system error), w₁.after w₁.tree notes)) :
    Says host launcher line state w (failureReport error) := by
  obtain ⟨before, hbefore, hperform⟩ := perform_runLine host launcher line state w
  obtain ⟨notes, hnotes, hdispatch⟩ := h (w.after w.tree before) rfl
  have hcommand : ¬ (CommandLine.plain command).command = [] := hne
  rw [hline, if_neg hcommand, hdispatch] at hperform
  have hrecover := perform_recover_system (.plain command) state error
    ((w.after w.tree before).after w.tree notes)
  let note := (failureNote (.plain command) error).eventsAt w.limit
  refine ⟨before ++ notes ++ note, (hbefore.append hnotes).append (quiet_eventsAt _ _),
    (hperform.trans hrecover).trans ?_⟩
  simp only [World.tree_after, World.limit_after, World.after_after, List.append_assoc, note]

/-! ## The two ways -/

/-- What `type` prints about a name that was looked up. -/
def typeAnswer (name : Text) : Option Text → Text
  | some path => name ++ " is " ++ path
  | none => name ++ ": not found"

theorem described_of_plain (h : IsPlainName name) (t : Tree) :
    Builtin.described host state t name =
      (Search.program t host.directory (Search.pathOf host state.environment) name).map
        (typeAnswer name) := by
  rw [Builtin.described, h.not_builtin, if_neg Bool.false_ne_true]
  rcases Search.program t host.directory (Search.pathOf host state.environment) name with
    error | _ | path <;> rfl

/-- What is described is delivered to the console. -/
theorem perform_dispatch_type (h : IsPlainName name) (w : World) :
    ∃ notes, Quiet notes ∧
      (Builtin.dispatch host launcher (.plain ("type " ++ name)) state).perform w =
        match Search.program w.tree host.directory (Search.pathOf host state.environment) name with
        | .ok found => (.ok state, w.after w.tree (notes ++ [.printed (typeAnswer name found)]))
        | .error error => (.error (.system error), w.after w.tree notes) := by
  obtain ⟨notes, hnotes, hperform⟩ := Builtin.perform_description host state name w
  rw [described_of_plain h] at hperform
  refine ⟨notes, hnotes, ?_⟩
  rw [Builtin.dispatch, CommandLine.command_plain, h.ofCommand_type_eq]
  dsimp only
  rw [perform_bind, hperform]
  rcases Search.program w.tree host.directory (Search.pathOf host state.environment) name with
    error | found
  · rfl
  · show (printLine (typeAnswer name found) >>= fun _ => pure state).perform _ = _
    rw [perform_bind, perform_printLine]
    simp only [perform_pure, World.tree_after, World.after_after]

/-- **`type`** says what the look-up of the name comes to. -/
theorem says_type (h : IsPlainName name) {found : Option Text}
    (hfound : Search.program w.tree host.directory (Search.pathOf host state.environment) name =
      .ok found) :
    Says host launcher ("type " ++ name) state w (typeAnswer name found) := by
  refine says_of_ok h.ofLine_type_eq (List.cons_ne_nil _ _) fun w₁ htree => ?_
  obtain ⟨notes, hnotes, hperform⟩ := @perform_dispatch_type host launcher name state h w₁
  rw [htree, hfound] at hperform
  rw [htree]
  exact ⟨notes, hnotes, hperform⟩

theorem says_type_of_error (h : IsPlainName name) {error : SystemError}
    (hfound : Search.program w.tree host.directory (Search.pathOf host state.environment) name =
      .error error) :
    Says host launcher ("type " ++ name) state w (failureReport error) := by
  refine says_of_error h.ofLine_type_eq (List.cons_ne_nil _ _) fun w₁ htree => ?_
  obtain ⟨notes, hnotes, hperform⟩ := @perform_dispatch_type host launcher name state h w₁
  rw [htree, hfound] at hperform
  rw [htree]
  exact ⟨notes, hnotes, hperform⟩

/-- **A name** that no program is found for says so. -/
theorem says_name_of_none (h : IsPlainName name)
    (hfound : Search.program w.tree host.directory (Search.pathOf host state.environment) name =
      .ok none) :
    Says host launcher name state w (name ++ ": command not found") := by
  refine says_of_ok h.ofLine_eq h.ne_nil fun w₁ htree => ?_
  rw [← htree] at hfound
  have hwords : words (CommandLine.plain name).command = [name] := h.words_eq
  obtain ⟨notes, hnotes, hrun⟩ := Program.perform_run_of_unresolved launcher hwords hfound
  exact ⟨notes, hnotes, Builtin.perform_dispatch_of_program h.not_isBuiltinForm hrun⟩

theorem says_name_of_error (h : IsPlainName name) {error : SystemError}
    (hfound : Search.program w.tree host.directory (Search.pathOf host state.environment) name =
      .error error) :
    Says host launcher name state w (failureReport error) := by
  refine says_of_error h.ofLine_eq h.ne_nil fun w₁ htree => ?_
  rw [← htree] at hfound
  have hwords : words (CommandLine.plain name).command = [name] := h.words_eq
  have hrun := Program.perform_run_of_failed launcher hwords hfound
  refine ⟨[], quiet_nil, ?_⟩
  rw [World.after_self]
  exact Builtin.perform_dispatch_of_program h.not_isBuiltinForm hrun

end Says

/-! ## What a line prints and launches -/

section Answers

variable (host : Host) (launcher : Launcher) (limit : Level) (state : State) (tree : Tree)

/-- The texts that a line prints. -/
def printedBy (line : Text) : List Text :=
  ((runLine host launcher line state).perform ⟨tree, limit, []⟩).2.events.filterMap Event.printed?

/-- The launches that a line asks for. -/
def launchedBy (line : Text) : List Launch :=
  ((runLine host launcher line state).perform ⟨tree, limit, []⟩).2.events.filterMap
    Event.launched?

variable {host launcher limit state tree} {line name text : Text}

/-- A line that says one thing prints that and launches nothing. -/
theorem Says.answers (h : Says host launcher line state ⟨tree, limit, []⟩ text) :
    printedBy host launcher limit state tree line = [text] ∧
      launchedBy host launcher limit state tree line = [] := by
  obtain ⟨notes, hnotes, hperform⟩ := h
  rw [printedBy, launchedBy, hperform]
  simp only [World.events_after, List.nil_append, List.filterMap_append]
  rw [hnotes.printed?, hnotes.launched?]
  exact ⟨rfl, rfl⟩

/-- A name that a program is found for launches that program. -/
theorem launchedBy_of_found (h : IsPlainName name) {path : Text}
    (hfound : Search.program tree host.directory (Search.pathOf host state.environment) name =
      .ok (some path)) :
    launchedBy host launcher limit state tree name = [Program.launchOf state [name] path] := by
  have hverb : Verb.ofCommand name = .program :=
    Verb.ofCommand_eq_program_iff.mpr h.not_isBuiltinForm
  let w : World := ⟨tree, limit, []⟩
  have hfound : Search.program w.tree host.directory (Search.pathOf host state.environment) name =
    .ok (some path) := hfound
  obtain ⟨result, events, hperform, hlaunched, -⟩ :=
    runLine_of_found launcher h.ofLine_eq hverb h.words_eq hfound
  rw [launchedBy, hperform, World.events_after]
  exact hlaunched

/-! ## Telling the answers apart -/

/-- The text in front of the first space, and the text behind it, are told by the whole. -/
theorem append_space_inj {first second rest rest' : Text} (hfirst : ' ' ∉ first)
    (hsecond : ' ' ∉ second) (h : first ++ ' ' :: rest = second ++ ' ' :: rest') :
    first = second ∧ rest = rest' := by
  induction first generalizing second with
  | nil =>
    cases second with
    | nil => exact ⟨rfl, (List.cons.inj h).2⟩
    | cons c more =>
      obtain rfl : ' ' = c := (List.cons.inj h).1
      exact absurd List.mem_cons_self hsecond
  | cons c more ih =>
    cases second with
    | nil =>
      obtain rfl : c = ' ' := (List.cons.inj h).1
      exact absurd List.mem_cons_self hfirst
    | cons d others =>
      obtain ⟨rfl, htail⟩ := List.cons.inj h
      have hmore : ' ' ∉ more := fun hmem => hfirst (List.mem_cons_of_mem _ hmem)
      have hothers : ' ' ∉ others := fun hmem => hsecond (List.mem_cons_of_mem _ hmem)
      obtain ⟨rfl, hrest⟩ := ih hmore hothers htail
      exact ⟨rfl, hrest⟩

theorem failureReport_eq (error : SystemError) :
    failureReport error = "Error" ++ ' ' :: ("executing command: " ++ error.message) := rfl

/-- A path that is told is no report of a failure, even about a program called `Error`. -/
theorem typeAnswer_ne_failureReport (h : ' ' ∉ name) (found : Option Text) (error : SystemError) :
    typeAnswer name found ≠ failureReport error := by
  intro heq
  rw [failureReport_eq] at heq
  cases found with
  | none =>
    have hcolon : ' ' ∉ name ++ [':'] := by simp [h]
    have hanswer : typeAnswer name none = (name ++ [':']) ++ ' ' :: "not found" := by
      simp [typeAnswer]
    have hword := (append_space_inj hcolon (by decide) (hanswer.symm.trans heq)).1
    exact absurd (congrArg List.getLast? hword) (by simp)
  | some path =>
    have hanswer : typeAnswer name (some path) = name ++ ' ' :: ("is " ++ path) := by
      simp [typeAnswer]
    have hrest := (append_space_inj h (by decide) (hanswer.symm.trans heq)).2
    exact absurd (List.cons.inj hrest).1 (by decide)

theorem notFound_ne_failureReport (h : ' ' ∉ name) (error : SystemError) :
    name ++ ": command not found" ≠ failureReport error := by
  intro heq
  rw [failureReport_eq] at heq
  have hcolon : ' ' ∉ name ++ [':'] := by simp [h]
  have hanswer : name ++ ": command not found" = (name ++ [':']) ++ ' ' :: "command not found" := by
    simp
  have hword := (append_space_inj hcolon (by decide) (hanswer.symm.trans heq)).1
  exact absurd (congrArg List.getLast? hword) (by simp)

/-- What `type` prints about a name tells what the look-up has found. -/
theorem typeAnswer_inj {found found' : Option Text} :
    typeAnswer name found = typeAnswer name found' ↔ found = found' := by
  refine ⟨fun heq => ?_, congrArg _⟩
  cases found with
  | none =>
    cases found' with
    | none => rfl
    | some path' => exact absurd heq (by simp [typeAnswer])
  | some path =>
    cases found' with
    | none => exact absurd heq (by simp [typeAnswer])
    | some path' =>
      have hrest : path = path' := by
        simpa [typeAnswer] using heq
      rw [hrest]

end Answers

/-! ## The two lines side by side -/

/-- **Tells what running does** — how the lines that `type` prints about a name compare with
what a line with nothing but the name does. -/
structure TellsRunning (host : Host) (launcher : Launcher) (limit : Level) (state : State)
    (tree : Tree) (name : Text) : Prop where
  /-- `type` prints one line. -/
  one : (printedBy host launcher limit state tree ("type " ++ name)).length = 1
  /-- `type` launches nothing. -/
  still : launchedBy host launcher limit state tree ("type " ++ name) = []
  /-- A path is told if and only if the program at that path is launched. -/
  found : ∀ path, name ++ " is " ++ path ∈ printedBy host launcher limit state tree ("type " ++ name)
    ↔ ∃ launch ∈ launchedBy host launcher limit state tree name, launch.executable = path
  /-- It is told that nothing was found if and only if the name says so, and launches nothing. -/
  notFound : name ++ ": not found" ∈ printedBy host launcher limit state tree ("type " ++ name)
    ↔ name ++ ": command not found" ∈ printedBy host launcher limit state tree name ∧
      launchedBy host launcher limit state tree name = []
  /-- In all other cases the look-up has failed, and both lines report that. -/
  failed : (∀ path, name ++ " is " ++ path ∉
      printedBy host launcher limit state tree ("type " ++ name)) →
    name ++ ": not found" ∉ printedBy host launcher limit state tree ("type " ++ name) →
    ∃ error, Search.program tree host.directory (Search.pathOf host state.environment) name =
        .error error ∧
      printedBy host launcher limit state tree ("type " ++ name) = [failureReport error] ∧
      printedBy host launcher limit state tree name = [failureReport error] ∧
      launchedBy host launcher limit state tree name = []

section TellsRunning

variable {host : Host} {launcher : Launcher} {limit : Level} {state : State} {tree : Tree}
  {name path : Text} {error : SystemError}

/-- The only answer of `type` tells what was found. -/
theorem mem_typeAnswer_iff (found found' : Option Text) :
    typeAnswer name found' ∈ [typeAnswer name found] ↔ found' = found :=
  List.mem_singleton.trans typeAnswer_inj

/-- The program that is told is the one that is launched. -/
theorem tellsRunning_of_found (h : IsPlainName name)
    (hfound : Search.program tree host.directory (Search.pathOf host state.environment) name =
      .ok (some path)) : TellsRunning host launcher limit state tree name := by
  have hsays : Says host launcher ("type " ++ name) state ⟨tree, limit, []⟩
      (typeAnswer name (some path)) := says_type h hfound
  obtain ⟨hprinted, hstill⟩ := hsays.answers
  have hlaunched : launchedBy host launcher limit state tree name =
      [Program.launchOf state [name] path] := launchedBy_of_found h hfound
  exact {
    one := by rw [hprinted]; rfl
    still := hstill
    found := by
      intro path'
      rw [hprinted, hlaunched]
      refine (mem_typeAnswer_iff (some path) (some path')).trans ?_
      constructor
      · rintro hpath
        exact ⟨_, List.mem_singleton.mpr rfl, (Option.some.inj hpath).symm⟩
      · rintro ⟨launch, hlaunch, rfl⟩
        rw [List.mem_singleton.mp hlaunch]
        rfl
    notFound := by
      rw [hprinted, hlaunched]
      refine iff_of_false (fun hmem => ?_) (fun hnone => absurd hnone.2 (by simp))
      exact absurd ((mem_typeAnswer_iff (some path) none).mp hmem) (by simp)
    failed := by
      intro hnone _
      rw [hprinted] at hnone
      exact absurd (List.mem_singleton.mpr rfl) (hnone path) }

/-- If nothing is found, both lines say so. -/
theorem tellsRunning_of_none (h : IsPlainName name)
    (hfound : Search.program tree host.directory (Search.pathOf host state.environment) name =
      .ok none) : TellsRunning host launcher limit state tree name := by
  have hsays : Says host launcher ("type " ++ name) state ⟨tree, limit, []⟩
      (typeAnswer name none) := says_type h hfound
  have hname : Says host launcher name state ⟨tree, limit, []⟩ (name ++ ": command not found") :=
    says_name_of_none h hfound
  obtain ⟨hprinted, hstill⟩ := hsays.answers
  obtain ⟨hprinted', hlaunched⟩ := hname.answers
  exact {
    one := by rw [hprinted]; rfl
    still := hstill
    found := by
      intro path
      rw [hprinted, hlaunched]
      refine iff_of_false (fun hmem => ?_) (fun ⟨launch, hlaunch, _⟩ => absurd hlaunch (by simp))
      exact absurd ((mem_typeAnswer_iff none (some path)).mp hmem) (by simp)
    notFound := by
      rw [hprinted, hprinted', hlaunched]
      exact iff_of_true (List.mem_singleton.mpr rfl) ⟨List.mem_singleton.mpr rfl, rfl⟩
    failed := by
      intro _ hnone
      rw [hprinted] at hnone
      exact absurd (List.mem_singleton.mpr rfl) hnone }

/-- If the look-up fails, both lines report that. -/
theorem tellsRunning_of_error (h : IsPlainName name)
    (hfound : Search.program tree host.directory (Search.pathOf host state.environment) name =
      .error error) : TellsRunning host launcher limit state tree name := by
  have hspace : ' ' ∉ name := h.space_not_mem
  have hsays : Says host launcher ("type " ++ name) state ⟨tree, limit, []⟩
      (failureReport error) := says_type_of_error h hfound
  have hname : Says host launcher name state ⟨tree, limit, []⟩ (failureReport error) :=
    says_name_of_error h hfound
  obtain ⟨hprinted, hstill⟩ := hsays.answers
  obtain ⟨hprinted', hlaunched⟩ := hname.answers
  exact {
    one := by rw [hprinted]; rfl
    still := hstill
    found := by
      intro path
      rw [hprinted, hlaunched]
      refine iff_of_false (fun hmem => ?_) (fun ⟨launch, hlaunch, _⟩ => absurd hlaunch (by simp))
      exact typeAnswer_ne_failureReport hspace (some path) error (List.mem_singleton.mp hmem)
    notFound := by
      rw [hprinted, hprinted']
      refine iff_of_false (fun hmem => ?_) (fun ⟨hmem, _⟩ => ?_)
      · exact typeAnswer_ne_failureReport hspace none error (List.mem_singleton.mp hmem)
      · exact notFound_ne_failureReport hspace error (List.mem_singleton.mp hmem)
    failed := fun _ _ => ⟨error, hfound, hprinted, hprinted', hlaunched⟩ }

end TellsRunning

/-- **`type` tells what running does** — for every plain name, in every state and tree and with
every launcher. -/
theorem type_tells_running {name : Text} (h : IsPlainName name) (host : Host)
    (launcher : Launcher) (limit : Level) (state : State) (tree : Tree) :
    TellsRunning host launcher limit state tree name := by
  rcases hfound : Search.program tree host.directory (Search.pathOf host state.environment)
    name with error | _ | path
  · exact tellsRunning_of_error h hfound
  · exact tellsRunning_of_none h hfound
  · exact tellsRunning_of_found h hfound

/-- A name with an operator and with steps in it, on a search path that begins in the directory
of the host. -/
theorem type_tells_running_operator :
    let name : Text := "../bin/x>1"
    let tree := (Tree.empty.put ["bin"] .directory).put ["x>1", "bin"] (.file [] true)
    let state : State := ⟨"/", [("PATH", "none:dev")]⟩
    IsPlainName name ∧
      TellsRunning ⟨[], [], none, 990⟩ (.ofTable [] fun _ => []) .debug state tree name := by
  intro name tree state
  have h : IsPlainName name := by decide
  exact ⟨h, type_tells_running h ⟨[], [], none, 990⟩ (.ofTable [] fun _ => []) .debug state tree⟩

/-- A program that is launched may print the line that tells of a command that is not found, and
then `type` tells its path all the same. -/
theorem not_found_printed_by_program :
    let child : Child := ⟨.ofText "x: command not found\n" none, ⟨[], none⟩, 0⟩
    let launcher := Launcher.ofTable [("x", .ok child)] fun _ => []
    let tree := Tree.empty.put ["x", "bin"] (.file [] true)
    let state : State := ⟨"/", [("PATH", "/bin")]⟩
    let printed := printedBy ⟨[], [], none, 990⟩ launcher .error state tree
    IsPlainName "x" ∧
      ¬ (("x: not found" : Text) ∈ printed "type x" ↔
        ("x: command not found" : Text) ∈ printed "x") := by
  intro child launcher tree state printed
  have h : IsPlainName "x" := by decide
  have htype : printed "type x" = ["x is /bin/x"] := by decide +kernel
  have hname : printed "x" = ["x: command not found"] := by decide +kernel
  refine ⟨h, fun hiff => ?_⟩
  rw [htype, hname] at hiff
  exact absurd (hiff.mpr (List.mem_singleton.mpr rfl)) (by decide)

end Session
end LineShell
