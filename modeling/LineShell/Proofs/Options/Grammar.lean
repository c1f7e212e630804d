/-
# LineShell.Proofs.Options.Grammar -- what arguments ask for

Arguments that neither ask for help or the version nor are misused spell a list of uses of the
other options (`Spells`): in any order, repeated or not, each by a full name, a shortened one or a
letter, with its text attached or as the next argument. What they ask for is told by the uses
alone, of which the last one of each option counts (`Choices.ofUses`), and there is no other way
to ask for it (`read_eq_run_iff`).
-/

import Mathlib.Data.List.Induction
import LineShell.Proofs.Options.Naming

namespace LineShell
namespace Options

/-- **Use** — an option as it is used, with the text that it is given. -/
inductive Use
  | command (line : Text)
  | level (name : Text)
  | showSettings
  deriving DecidableEq, Repr

namespace Use

def switch : Use → Switch
  | command _ => .command
  | level _ => .level
  | showSettings => .showSettings

def text? : Use → Option Text
  | command line => some line
  | level name => some name
  | showSettings => none

def line? : Use → Option Text
  | command line => some line
  | _ => none

def levelName? : Use → Option Text
  | level name => some name
  | _ => none

end Use

/-- **Spells** — the arguments are uses of options, one after the other. A text for an option is
attached to it, or is the next argument. -/
inductive Spells : List Text → List Use → Prop
  | done : Spells [] []
  | single {use : Use} {argument : Text} {rest : List Text} {uses : List Use} :
    Names argument use.switch use.text? → Spells rest uses →
    Spells (argument :: rest) (use :: uses)
  | apart {use : Use} {argument text : Text} {rest : List Text} {uses : List Use} :
    Names argument use.switch none → use.text? = some text → IsPlain text → Spells rest uses →
    Spells (argument :: text :: rest) (use :: uses)

/-- The lines that are to be run. -/
def lines (uses : List Use) : List Text := uses.filterMap Use.line?

/-- The names of levels that are chosen. -/
def levelNames (uses : List Use) : List Text := uses.filterMap Use.levelName?

/-- **What uses ask for** — of the lines and the levels, the last ones. -/
def Choices.ofUses (uses : List Use) : Choices where
  command := (lines uses).getLast?.map valueOf
  level := (levelNames uses).getLast?.bind valueOf
  showSettings := uses.contains .showSettings

theorem Choices.showSettings_ofUses_iff {uses : List Use} :
    (ofUses uses).showSettings = true ↔ .showSettings ∈ uses := List.contains_iff_mem

/-! ## One use after the other -/

/-- The choices behind one more use. -/
def Choices.behind (choices : Choices) : Use → Choices
  | .command line => { choices with command := some (valueOf line) }
  | .level name => { choices with level := valueOf name }
  | .showSettings => { choices with showSettings := true }

theorem Choices.ofUses_eq_foldl (uses : List Use) :
    Choices.ofUses uses = uses.foldl Choices.behind Choices.none := by
  induction uses using List.reverseRecOn with
  | nil => rfl
  | append_singleton before use ih =>
    rw [List.foldl_append, ← ih]
    cases use <;> simp [ofUses, lines, levelNames, behind, Use.line?, Use.levelName?]

/-! ## Spelled arguments -/

theorem ne_mark_of_names {argument : Text} {s : Switch} {attached : Option Text}
    (h : Names argument s attached) : argument ≠ "--" := by
  rintro rfl
  obtain ⟨name, hname⟩ := exists_classify_iff.mpr h
  exact nomatch hname

theorem ne_mark_of_isPlain {argument : Text} (h : IsPlain argument) : argument ≠ "--" := by
  rintro rfl
  exact nomatch classify_eq_plain_iff.mpr h

theorem classifyAll_cons {argument : Text} {rest : List Text} {kind : Kind}
    {kinds : List (Text × Kind)} (hne : argument ≠ "--") (hkind : classify argument = .ok kind)
    (hrest : classifyAll rest = .ok kinds) :
    classifyAll (argument :: rest) = .ok ((argument, kind) :: kinds) := by
  rw [classifyAll, if_neg hne, hkind, hrest]
  rfl

/-- Uses are carried out one after the other. -/
theorem exists_classifyAll_of_spells {arguments : List Text} {uses : List Use}
    (h : Spells arguments uses) :
    ∃ kinds, classifyAll arguments = .ok kinds ∧ ∀ choices,
      interpret choices [] kinds = .run (uses.foldl Choices.behind choices) := by
  induction h with
  | done => exact ⟨[], rfl, fun choices => rfl⟩
  | @single use argument rest uses hnames _ ih =>
    obtain ⟨kinds, hrest, hinterpret⟩ := ih
    obtain ⟨name, hkind⟩ := exists_classify_iff.mpr hnames
    refine ⟨_, classifyAll_cons (ne_mark_of_names hnames) hkind hrest, fun choices => ?_⟩
    rw [List.foldl_cons, ← hinterpret]
    cases use with
    | command line => rfl
    | level name => rfl
    | showSettings => simp only [interpret]; rfl
  | @apart use argument text rest uses hnames htext hplain _ ih =>
    obtain ⟨kinds, hrest, hinterpret⟩ := ih
    obtain ⟨name, hkind⟩ := exists_classify_iff.mpr hnames
    have hvalue := classifyAll_cons (ne_mark_of_isPlain hplain)
      (classify_eq_plain_iff.mpr hplain) hrest
    refine ⟨_, classifyAll_cons (ne_mark_of_names hnames) hkind hvalue, fun choices => ?_⟩
    rw [List.foldl_cons, ← hinterpret]
    cases use with
    | command line =>
      obtain rfl := Option.some.inj htext
      rfl
    | level name =>
      obtain rfl := Option.some.inj htext
      rfl
    | showSettings => exact nomatch htext

/-! ## Letters that share a hyphen -/

/-- **Begins with** — the acts that the argument comes to begin with the given one, unless it
comes to none. -/
def Unfolding.BeginsWith (first : Act) : Unfolding → Prop
  | complete acts | .open acts _ => acts.head? = some first
  | ignored _ _ => True

theorem beginsWith_unfoldLetters {first : Act} {acts : List Act} (h : acts.head? = some first)
    (s : Switch) (text : Text) : (unfoldLetters acts s text).BeginsWith first := by
  have happend : ∀ more, (acts ++ more).head? = some first := by
    intro more
    rw [List.head?_append, h]
    rfl
  induction text generalizing acts s with
  | nil => exact h
  | cons c rest ih =>
    rw [unfoldLetters]
    split
    · exact happend _
    · split
      · trivial
      · refine ih (happend _) _ fun more => ?_
        rw [List.append_assoc]
        exact happend _

/-- Letters can share a hyphen only behind the one that asks for help. -/
theorem beginsWith_unfold {name : Text} {s : Switch} (hname : name ∈ s.names)
    (h : s.takesValue = false) (text : Text) :
    (unfold name s (some text)).BeginsWith ⟨.help, none⟩ := by
  have hletters : ∀ s ∈ Switch.all, ∀ name ∈ s.names, s.takesValue = false → isLong name = false →
      s = .help := by decide
  rw [unfold, h, if_neg Bool.false_ne_true]
  split
  · trivial
  · rename_i hseveral
    rw [not_or, Bool.not_eq_true] at hseveral
    obtain rfl := hletters s s.mem_all name hname h hseveral.2
    obtain ⟨c, rest, rfl⟩ := List.exists_cons_of_ne_nil hseveral.1
    rw [unfoldLetters, h, if_neg Bool.false_ne_true]
    split
    · trivial
    · exact beginsWith_unfoldLetters rfl _ _

/-- Who asks for help first gets no choices. -/
theorem head?_ne_of_apply_eq_ok {choices final : Choices} {acts : List Act}
    (h : apply choices acts = .ok final) : acts.head? ≠ some ⟨.help, none⟩ := by
  intro hhead
  obtain ⟨rest, rfl⟩ := List.head?_eq_some_iff.mp hhead
  exact nomatch h

/-! ## Arguments that are carried out -/

/-- Acts that lead to no choices ask for something else than a run. -/
theorem ne_run_of_apply_eq_error {choices : Choices} {acts : List Act} {request : Request}
    (h : apply choices acts = .error request) (final : Choices) : request ≠ .run final := by
  induction acts generalizing choices with
  | nil => exact nomatch h
  | cons act rest ih =>
    obtain ⟨s, value⟩ := act
    cases s with
    | help =>
      obtain rfl := Except.error.inj h
      simp
    | version =>
      obtain rfl := Except.error.inj h
      simp
    | command => exact ih h
    | level => exact ih h
    | showSettings => exact ih h

/-- An argument that belongs to no option is not forgotten. -/
theorem leftover_eq_nil_of_interpret {choices final : Choices} {leftover : List Text}
    {kinds : List (Text × Kind)} (h : interpret choices leftover kinds = .run final) :
    leftover = [] := by
  fun_induction interpret choices leftover kinds
  case case1 choices leftover =>
    rw [conclude] at h
    split at h
    · assumption
    · exact nomatch h
  case case2 => exact nomatch h
  case case3 happly => exact absurd h (ne_run_of_apply_eq_error happly final)
  case case4 ih => exact ih h
  case case5 happly => exact absurd h (ne_run_of_apply_eq_error happly final)
  case case6 ih => exact ih h
  case case7 => exact nomatch h
  case case8 happly => exact absurd h (ne_run_of_apply_eq_error happly final)
  case case9 ih => exact ih h
  case case10 ih => exact absurd (ih h) (by simp)

/-- Arguments are told apart one after the other, up to the mark. -/
theorem classifyAll_cons_cases {first : Text} {rest : List Text} {kinds : List (Text × Kind)}
    (h : classifyAll (first :: rest) = .ok kinds) :
    kinds = (first, .mark) :: rest.map (·, .plain) ∨
      ∃ kind others, classify first = .ok kind ∧ classifyAll rest = .ok others ∧
        kinds = (first, kind) :: others := by
  rw [classifyAll] at h
  split at h
  · exact .inl (Except.ok.inj h).symm
  · rcases hfirst : classify first with message | kind <;> rw [hfirst] at h
    · exact nomatch h
    rcases hrest : classifyAll rest with message | others <;> rw [hrest] at h
    · exact nomatch h
    · exact .inr ⟨kind, others, rfl, rfl, (Except.ok.inj h).symm⟩

theorem eq_nil_of_classifyAll {arguments : List Text} (h : classifyAll arguments = .ok []) :
    arguments = [] := by
  rcases arguments with _ | ⟨first, rest⟩
  · rfl
  · rcases classifyAll_cons_cases h with heq | ⟨kind, others, -, -, heq⟩
    · exact nomatch heq
    · exact nomatch heq

/-- An argument in front of the mark is told by itself. -/
theorem of_classifyAll_eq_cons {arguments : List Text} {argument : Text} {kind : Kind}
    {kinds : List (Text × Kind)} (h : classifyAll arguments = .ok ((argument, kind) :: kinds))
    (hkind : kind ≠ .mark) :
    ∃ rest, arguments = argument :: rest ∧ classify argument = .ok kind ∧
      classifyAll rest = .ok kinds := by
  rcases arguments with _ | ⟨first, rest⟩
  · exact nomatch h
  rcases classifyAll_cons_cases h with heq | ⟨told, others, hfirst, hrest, heq⟩
  · obtain ⟨hfirst, -⟩ := List.cons.inj heq
    exact absurd (Prod.mk.inj hfirst).2 hkind
  · obtain ⟨hfirst', rfl⟩ := List.cons.inj heq
    obtain ⟨rfl, rfl⟩ := Prod.mk.inj hfirst'
    exact ⟨rest, rfl, hfirst, hrest⟩

section Bare

variable {s : Switch} {choices final : Choices}

/-- An option that takes a text is used with it. -/
theorem exists_use_of_value {text : Text} (htakes : s.takesValue = true)
    (happly : apply choices [⟨s, valueOf text⟩] = .ok final) :
    ∃ use : Use, use.switch = s ∧ use.text? = some text ∧ final = choices.behind use := by
  cases s with
  | command => exact ⟨.command text, rfl, rfl, (Except.ok.inj happly).symm⟩
  | level => exact ⟨.level text, rfl, rfl, (Except.ok.inj happly).symm⟩
  | help => exact nomatch htakes
  | version => exact nomatch htakes
  | showSettings => exact nomatch htakes

/-- An option without a text that leads to choices shows the settings. -/
theorem eq_showSettings_of_bare (htakes : ¬ s.takesValue = true)
    (happly : apply choices [⟨s, none⟩] = .ok final) :
    s = .showSettings ∧ final = choices.behind .showSettings := by
  cases s with
  | command => exact absurd rfl htakes
  | level => exact absurd rfl htakes
  | help => exact nomatch happly
  | version => exact nomatch happly
  | showSettings => exact ⟨rfl, (Except.ok.inj happly).symm⟩

end Bare

section Unfold

variable {name : Text} {s last : Switch} {attached : Option Text} {acts more : List Act}
  {choices final : Choices} (hname : name ∈ s.names)
include hname

/-- An argument that is complete and leads to choices is one use. -/
theorem exists_use_of_complete (h : unfold name s attached = .complete acts)
    (happly : apply choices acts = .ok final) :
    ∃ use : Use, use.switch = s ∧ use.text? = attached ∧ final = choices.behind use := by
  rcases attached with _ | text
  · exact nomatch h
  rcases htakes : s.takesValue with _ | _
  · have hhelp := beginsWith_unfold hname htakes text
    rw [h] at hhelp
    exact absurd hhelp (head?_ne_of_apply_eq_ok happly)
  · rw [unfold, if_pos htakes] at h
    obtain rfl := Unfolding.complete.inj h
    exact exists_use_of_value htakes happly

/-- An argument that is open and leads to choices has nothing attached. -/
theorem of_open (h : unfold name s attached = .open acts last)
    (happly : apply choices (acts ++ more) = .ok final) :
    attached = none ∧ acts = [] ∧ last = s := by
  rcases attached with _ | text
  · obtain ⟨rfl, rfl⟩ := Unfolding.open.inj h
    exact ⟨rfl, rfl, rfl⟩
  rcases htakes : s.takesValue with _ | _
  · have hhelp := beginsWith_unfold hname htakes text
    rw [h] at hhelp
    have hhead : (acts ++ more).head? = some ⟨.help, none⟩ := by
      rw [List.head?_append, show acts.head? = _ from hhelp]
      rfl
    exact absurd hhead (head?_ne_of_apply_eq_ok happly)
  · rw [unfold, if_pos htakes] at h
    exact nomatch h

end Unfold

/-- Arguments that are carried out to the end are uses of options. -/
theorem exists_spells_of_interpret {arguments : List Text} {choices final : Choices}
    {leftover : List Text} {kinds : List (Text × Kind)} (hkinds : classifyAll arguments = .ok kinds)
    (h : interpret choices leftover kinds = .run final) :
    ∃ uses, Spells arguments uses ∧ final = uses.foldl Choices.behind choices := by
  fun_induction interpret choices leftover kinds generalizing arguments
  case case1 choices leftover =>
    have hchoices : final = choices := by
      rw [conclude] at h
      split at h
      · exact (Request.run.inj h).symm
      · exact nomatch h
    obtain rfl : arguments = [] := eq_nil_of_classifyAll hkinds
    exact ⟨[], .done, hchoices⟩
  case case2 => exact nomatch h
  case case3 happly => exact absurd h (ne_run_of_apply_eq_error happly final)
  case case4 hunfold next happly ih =>
    obtain ⟨rest, rfl, hkind, hrest⟩ := of_classifyAll_eq_cons hkinds (by simp)
    obtain ⟨hname, hnames⟩ := of_classify_eq_option hkind
    obtain ⟨use, rfl, rfl, rfl⟩ := exists_use_of_complete hname hunfold happly
    obtain ⟨uses, hspells, rfl⟩ := ih hrest h
    exact ⟨use :: uses, .single hnames hspells, rfl⟩
  case case5 happly => exact absurd h (ne_run_of_apply_eq_error happly final)
  case case6 hunfold htakes text rest next happly ih =>
    obtain ⟨others, rfl, hkind, hothers⟩ := of_classifyAll_eq_cons hkinds (by simp)
    obtain ⟨others, rfl, hplain, hothers⟩ := of_classifyAll_eq_cons hothers (by simp)
    obtain ⟨hname, hnames⟩ := of_classify_eq_option hkind
    obtain ⟨rfl, rfl, rfl⟩ := of_open hname hunfold happly
    obtain ⟨use, hswitch, htext, rfl⟩ := exists_use_of_value htakes happly
    obtain ⟨uses, hspells, rfl⟩ := ih hothers h
    exact ⟨use :: uses, .apart (hswitch ▸ hnames) htext (classify_eq_plain_iff.mp hplain) hspells,
      rfl⟩
  case case7 => exact nomatch h
  case case8 happly => exact absurd h (ne_run_of_apply_eq_error happly final)
  case case9 hunfold htakes next happly ih =>
    obtain ⟨others, rfl, hkind, hothers⟩ := of_classifyAll_eq_cons hkinds (by simp)
    obtain ⟨hname, hnames⟩ := of_classify_eq_option hkind
    obtain ⟨rfl, rfl, rfl⟩ := of_open hname hunfold happly
    obtain ⟨rfl, rfl⟩ := eq_showSettings_of_bare htakes happly
    obtain ⟨uses, hspells, rfl⟩ := ih hothers h
    exact ⟨.showSettings :: uses, .single hnames hspells, rfl⟩
  case case10 ih => exact absurd (leftover_eq_nil_of_interpret h) (by simp)

/-- **What arguments ask for** — the shell is asked to run exactly by arguments that spell uses of
its options, and it is asked for what these uses come to. -/
theorem read_eq_run_iff {arguments : List Text} {choices : Choices} :
    read arguments = .run choices ↔
      ∃ uses, Spells arguments uses ∧ choices = Choices.ofUses uses := by
  constructor
  · intro h
    rcases hkinds : classifyAll arguments with message | kinds <;> rw [read, hkinds] at h
    · exact nomatch h
    obtain ⟨uses, hspells, rfl⟩ := exists_spells_of_interpret hkinds h
    exact ⟨uses, hspells, (Choices.ofUses_eq_foldl uses).symm⟩
  · rintro ⟨uses, hspells, rfl⟩
    obtain ⟨kinds, hkinds, hinterpret⟩ := exists_classifyAll_of_spells hspells
    rw [read, hkinds, Choices.ofUses_eq_foldl]
    exact hinterpret .none

/-- Names are shortened, and of two levels the last one counts. -/
example : read ["--show", "-lx", "--comm=a b", "--log-level", "debug"] =
    .run ⟨some (some ↑"a b"), some ↑"debug", true⟩ := by
  decide +kernel

end Options
end LineShell
