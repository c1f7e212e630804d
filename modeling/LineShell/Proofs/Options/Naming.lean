/-
# LineShell.Proofs.Options.Naming -- which option an argument names

An argument names an option by one of its names or by a beginning of its long name that no other
long name shares (`Designates`). It may bring a text for the option: behind an equals sign, or
directly behind a letter (`Names`). This is what the arguments are told apart by
(`exists_classify_iff`). An argument that no option could be meant by is taken as it is if it does
not look like an option in other respects either (`IsPlain`, `classify_eq_plain_iff`).
-/

import LineShell.Options

namespace LineShell

/-! ## Names -/

namespace Switch

theorem mem_all (s : Switch) : s ∈ all := by cases s <;> decide

/-- The name of a switch that begins with two hyphens. -/
def longName : Switch → Text
  | help => "--help"
  | version => "--version"
  | command => "--command"
  | level => "--log-level"
  | showSettings => "--show-config"

theorem longName_mem_names (s : Switch) : s.longName ∈ s.names := by cases s <;> decide

theorem named?_eq_some_iff {name : Text} {s : Switch} : named? name = some s ↔ name ∈ s.names := by
  constructor
  · intro h
    have hentry : ∀ entry ∈ table, entry.1 ∈ entry.2.names := by decide
    obtain ⟨before, behind, htable, -⟩ := List.lookup_eq_some_iff.mp h
    exact hentry (name, s) (htable ▸ List.mem_append_right before List.mem_cons_self)
  · exact named?_of_mem_names s (mem_all s) name

theorem equals_not_mem_of_mem_names {name : Text} {s : Switch} (h : name ∈ s.names) :
    '=' ∉ name := by
  have hall : ∀ s ∈ all, ∀ name ∈ s.names, '=' ∉ name := by decide
  exact hall s (mem_all s) name h

end Switch

namespace Options

/-- **Designates** — a name is a name of the switch, or begins with two hyphens and is the
beginning of names of this switch only. -/
def Designates (name : Text) (s : Switch) : Prop :=
  name ∈ s.names ∨
    isLong name = true ∧ ∀ other : Switch, (∃ full ∈ other.names, name <+: full) ↔ other = s

/-- **Names** — an argument names the switch, and brings a text for it or none. -/
inductive Names : Text → Switch → Option Text → Prop
  | bare {name : Text} {s : Switch} : Designates name s → Names name s none
  | joined {name text : Text} {s : Switch} :
    '=' ∉ name → Designates name s → Names (name ++ '=' :: text) s (some text)
  | letter {c : Char} {text : Text} {s : Switch} :
    ['-', c] ∈ s.names → text ≠ [] → text.head? ≠ some '=' →
    Names ('-' :: c :: text) s (some text)

/-- **Suggests** — the switch could be meant by the argument, perhaps among others. -/
def Suggests (argument : Text) (s : Switch) : Prop :=
  ∃ full ∈ s.names, if isLong argument then argument.takeWhile (· ≠ '=') <+: full
    else argument.take 2 = full

/-- **Plain** — the argument is taken as it is: it does not begin with a hyphen, or is one by
itself, or suggests no option and is a negative number or holds a space. -/
def IsPlain (argument : Text) : Prop :=
  argument.head? ≠ some '-' ∨ argument = "-" ∨
    (∀ s, ¬ Suggests argument s) ∧ (isNegativeNumber argument = true ∨ ' ' ∈ argument)

/-! ## Equals signs -/

section Equals

variable {name : Text} (h : '=' ∉ name)
include h

theorem takeWhile_append_of_equals_not_mem (text : Text) :
    (name ++ text).takeWhile (· ≠ '=') = name ++ text.takeWhile (· ≠ '=') := by
  apply List.takeWhile_append_of_pos
  intro c hc
  exact decide_eq_true fun heq => h (heq ▸ hc)

theorem dropWhile_append_of_equals_not_mem (text : Text) :
    (name ++ text).dropWhile (· ≠ '=') = text.dropWhile (· ≠ '=') := by
  apply List.dropWhile_append_of_pos
  intro c hc
  exact decide_eq_true fun heq => h (heq ▸ hc)

theorem cutAtEquals_of_not_mem : cutAtEquals name = (name, none) := by
  have hdrop := dropWhile_append_of_equals_not_mem h []
  rw [List.append_nil] at hdrop
  rw [cutAtEquals, hdrop]
  rfl

theorem cutAtEquals_joined (text : Text) :
    cutAtEquals (name ++ '=' :: text) = (name, some text) := by
  rw [cutAtEquals, dropWhile_append_of_equals_not_mem h, takeWhile_append_of_equals_not_mem h]
  show (name ++ [], some text) = (name, some text)
  rw [List.append_nil]

end Equals

/-- What stands in front of the first equals sign, if there is one. -/
theorem cutAtEquals_fst (argument : Text) :
    (cutAtEquals argument).1 = argument.takeWhile (· ≠ '=') := by
  by_cases h : '=' ∈ argument
  · obtain ⟨name, text, rfl, hname⟩ := List.eq_append_cons_of_mem h
    rw [cutAtEquals_joined hname, takeWhile_append_of_equals_not_mem hname]
    exact (List.append_nil name).symm
  · have htake := takeWhile_append_of_equals_not_mem h []
    rw [cutAtEquals_of_not_mem h]
    rw [List.append_nil] at htake
    exact (htake.trans (List.append_nil argument)).symm

/-! ## Names of two hyphens -/

theorem isLong_iff {argument : Text} : isLong argument = true ↔ ("--" : Text) <+: argument :=
  List.isPrefixOf_iff_prefix

/-- There are names of two hyphens, and names of one hyphen and a letter. -/
theorem eq_longName_or_length {name : Text} {s : Switch} (h : name ∈ s.names) :
    isLong name = true ∧ name = s.longName ∨ isLong name = false ∧ name.length = 2 := by
  have hall : ∀ s ∈ Switch.all, ∀ name ∈ s.names,
      isLong name = true ∧ name = s.longName ∨ isLong name = false ∧ name.length = 2 := by decide
  exact hall s s.mem_all name h

/-- What stands in front of an equals sign tells whether there are two hyphens. -/
theorem isLong_takeWhile (argument : Text) :
    isLong (argument.takeWhile (· ≠ '=')) = isLong argument := by
  rcases argument with _ | ⟨first, _ | ⟨second, rest⟩⟩
  · rfl
  · by_cases hfirst : first = '=' <;> simp [isLong, List.isPrefixOf, hfirst]
  · by_cases hfirst : first = '=' <;> by_cases hsecond : second = '=' <;>
      simp [isLong, List.isPrefixOf, hfirst, hsecond]

/-- The beginnings of names that have two hyphens themselves are those of long names. -/
theorem exists_beginning_iff {beginning : Text} (h : isLong beginning = true) {s : Switch} :
    (∃ full ∈ s.names, beginning <+: full) ↔ beginning <+: s.longName := by
  constructor
  · rintro ⟨full, hfull, hbegins⟩
    have hlong : isLong full = true := isLong_iff.mpr ((isLong_iff.mp h).trans hbegins)
    rcases eq_longName_or_length hfull with ⟨-, rfl⟩ | ⟨hshort, -⟩
    · exact hbegins
    · rw [hlong] at hshort
      exact absurd hshort (by decide)
  · intro hbegins
    exact ⟨s.longName, s.longName_mem_names, hbegins⟩

/-! ## Readings -/

theorem readings_of_isLong {argument : Text} (h : isLong argument = true) :
    readings argument =
      (Switch.all.filter fun s => (argument.takeWhile (· ≠ '=')).isPrefixOf s.longName).map
        fun s => (s.longName, s, (cutAtEquals argument).2) := by
  have hlong : Switch.table.filter (isLong ·.1) = Switch.all.map fun s => (s.longName, s) := by
    decide
  -- a name that begins with two hyphens and more has two hyphens
  have hentries : Switch.table.filter (fun entry =>
      (argument.takeWhile (· ≠ '=')).isPrefixOf entry.1) =
      (Switch.table.filter (isLong ·.1)).filter fun entry =>
        (argument.takeWhile (· ≠ '=')).isPrefixOf entry.1 := by
    rw [List.filter_filter]
    apply List.filter_congr
    intro entry _
    rw [Bool.eq_iff_iff, Bool.and_eq_true, List.isPrefixOf_iff_prefix, isLong_iff, iff_self_and]
    rw [← isLong_takeWhile, isLong_iff] at h
    exact h.trans
  simp only [readings, h, if_true]
  rw [← cutAtEquals_fst] at hentries ⊢
  rw [hentries, hlong, List.filter_map, List.map_map]
  rfl

/-- At most one switch has a letter for its name. -/
theorem readings_of_not_isLong {argument : Text} (h : isLong argument = false) :
    readings argument = (Switch.named? (argument.take 2)).toList.map
      fun s => (argument.take 2, s, some (argument.drop 2)) := by
  have hentries : Switch.table.filter (·.1 = argument.take 2) =
      (Switch.named? (argument.take 2)).toList.map (argument.take 2, ·) := by
    rcases hnamed : Switch.named? (argument.take 2) with _ | s
    · apply List.filter_eq_nil_iff.mpr
      intro entry hentry heq
      have htable : ∀ entry ∈ Switch.table, Switch.named? entry.1 = some entry.2 := by decide
      rw [← of_decide_eq_true heq, htable entry hentry] at hnamed
      exact absurd hnamed (by simp)
    · have hunique : ∀ s ∈ Switch.all, ∀ name ∈ s.names,
          Switch.table.filter (·.1 = name) = [(name, s)] := by decide
      exact hunique s s.mem_all _ (Switch.named?_eq_some_iff.mp hnamed)
  simp only [readings, h, Bool.false_eq_true, if_false]
  rw [hentries, List.map_map]
  rfl

/-- One switch is left exactly if it is the only one. -/
theorem filter_all_eq_singleton_iff {p : Switch → Bool} {s : Switch} :
    Switch.all.filter p = [s] ↔ ∀ other, p other = true ↔ other = s := by
  constructor
  · intro h other
    have hmem : other ∈ Switch.all.filter p ↔ other = s := by rw [h, List.mem_singleton]
    rwa [List.mem_filter, and_iff_right other.mem_all] at hmem
  · intro h
    have hp : p = fun other => decide (other = s) := by
      funext other
      rw [Bool.eq_iff_iff, decide_eq_true_iff]
      exact h other
    rw [hp]
    cases s <;> rfl

/-- There is no reading exactly if nothing is suggested. -/
theorem readings_eq_nil_iff {argument : Text} :
    readings argument = [] ↔ ∀ s, ¬ Suggests argument s := by
  rcases h : isLong argument with _ | _
  · simp only [readings_of_not_isLong h, Suggests, h, Bool.false_eq_true, if_false]
    rw [List.map_eq_nil_iff, Option.toList_eq_nil_iff, Option.eq_none_iff_forall_ne_some]
    simp only [ne_eq, Switch.named?_eq_some_iff, exists_eq_right']
  · have hlong : isLong (argument.takeWhile (· ≠ '=')) = true :=
      (isLong_takeWhile argument).trans h
    simp only [readings_of_isLong h, Suggests, h, if_true, exists_beginning_iff hlong]
    rw [List.map_eq_nil_iff, List.filter_eq_nil_iff]
    simp only [List.isPrefixOf_iff_prefix]
    exact ⟨fun hall s => hall s s.mem_all, fun hall s _ => hall s⟩

/-! ## Telling arguments apart -/

section Classify

variable {name argument : Text} {s : Switch}

/-- A name is a hyphen and more. -/
theorem exists_eq_hyphen_of_mem_names (h : name ∈ s.names) : ∃ c rest, name = '-' :: c :: rest := by
  have hall : ∀ s ∈ Switch.all, ∀ name ∈ s.names, name.head? = some '-' ∧ 2 ≤ name.length := by
    decide
  obtain ⟨hhead, hlength⟩ := hall s s.mem_all name h
  rcases name with _ | ⟨first, _ | ⟨c, rest⟩⟩
  · exact absurd hlength (by decide)
  · exact absurd hlength (by simp)
  · exact ⟨c, rest, congrArg (· :: c :: rest) (Option.some.inj hhead)⟩

theorem classify_of_mem_names (h : name ∈ s.names) :
    classify name = .ok (.option name s none) := by
  have hnamed := Switch.named?_eq_some_iff.mpr h
  obtain ⟨c, rest, rfl⟩ := exists_eq_hyphen_of_mem_names h
  simp only [classify, hnamed]

theorem named?_eq_none_iff : Switch.named? name = none ↔ ∀ s : Switch, name ∉ s.names := by
  rw [Option.eq_none_iff_forall_ne_some]
  exact forall_congr' fun s => not_congr Switch.named?_eq_some_iff

theorem not_mem_names_of_equals_mem (h : '=' ∈ name) (s : Switch) : name ∉ s.names :=
  fun hname => Switch.equals_not_mem_of_mem_names hname h

/-- A name with a text behind an equals sign. -/
theorem classify_joined (h : name ∈ s.names) (text : Text) :
    classify (name ++ '=' :: text) = .ok (.option name s (some text)) := by
  have hnone : Switch.named? (name ++ '=' :: text) = none :=
    named?_eq_none_iff.mpr (not_mem_names_of_equals_mem (by simp))
  have hcut := cutAtEquals_joined (Switch.equals_not_mem_of_mem_names h) text
  have hnamed := Switch.named?_eq_some_iff.mpr h
  obtain ⟨c, rest, rfl⟩ := exists_eq_hyphen_of_mem_names h
  rw [List.cons_append, List.cons_append] at hnone hcut ⊢
  simp only [classify, hnone, hcut, hnamed]

/-- **By readings** — the argument is a hyphen and more, and is no full name, also in front of an
equals sign. -/
structure IsByReadings (argument : Text) : Prop where
  hyphen : ∃ c rest, argument = '-' :: c :: rest
  not_name (s : Switch) : argument ∉ s.names
  not_joined (s : Switch) : ∀ name ∈ s.names, ∀ text, argument ≠ name ++ '=' :: text

/-- What such an argument is, by the readings of it. -/
def Kind.ofReadings (argument : Text) : List (Text × Switch × Option Text) → Except Text Kind
  | [(name, switch, attached)] => .ok (.option name switch attached)
  | [] => if isNegativeNumber argument ∨ ' ' ∈ argument then .ok .plain else .ok .unknown
  | several =>
    .error ("ambiguous option: " ++ argument ++ " could match "
      ++ ", ".toList.intercalate (several.map (·.1)))

theorem IsByReadings.classify_eq (h : IsByReadings argument) :
    classify argument = Kind.ofReadings argument (readings argument) := by
  have hnone : Switch.named? argument = none := named?_eq_none_iff.mpr h.not_name
  obtain ⟨c, rest, rfl⟩ := h.hyphen
  have hcut : ∀ text, (cutAtEquals ('-' :: c :: rest)).2 = some text →
      Switch.named? (cutAtEquals ('-' :: c :: rest)).1 = none := by
    intro text htext
    by_cases hequals : '=' ∈ '-' :: c :: rest
    · obtain ⟨name, behind, heq, hname⟩ := List.eq_append_cons_of_mem hequals
      rw [heq, cutAtEquals_joined hname]
      exact named?_eq_none_iff.mpr fun s hmem => h.not_joined s name hmem behind heq
    · rw [cutAtEquals_of_not_mem hequals] at htext
      exact absurd htext (by simp)
  simp only [classify, hnone]
  split
  · rename_i value switch hvalue hswitch
    rw [hcut value hvalue] at hswitch
    exact absurd hswitch (by simp)
  · rfl

/-- **What an argument can look like** — plain at first sight, or a full name, by itself or in
front of an equals sign; or its readings decide. -/
theorem shape_cases (argument : Text) :
    (argument.head? ≠ some '-' ∨ argument = "-") ∨ (∃ s : Switch, argument ∈ s.names) ∨
      (∃ s : Switch, ∃ name ∈ s.names, ∃ text, argument = name ++ '=' :: text) ∨
      IsByReadings argument := by
  rcases argument with _ | ⟨first, _ | ⟨c, rest⟩⟩
  · exact .inl (.inl (by simp))
  · by_cases hfirst : first = '-'
    · exact .inl (.inr (congrArg (· :: []) hfirst))
    · exact .inl (.inl (by simpa using hfirst))
  · by_cases hfirst : first = '-'
    · subst hfirst
      by_cases hname : ∃ s : Switch, '-' :: c :: rest ∈ s.names
      · exact .inr (.inl hname)
      by_cases hjoined : ∃ s : Switch, ∃ name ∈ s.names, ∃ text,
          '-' :: c :: rest = name ++ '=' :: text
      · exact .inr (.inr (.inl hjoined))
      · exact .inr (.inr (.inr ⟨⟨c, rest, rfl⟩, fun s hs => hname ⟨s, hs⟩,
          fun s name hs text heq => hjoined ⟨s, name, hs, text, heq⟩⟩))
    · exact .inl (.inl (by simpa using hfirst))

/-- An argument that does not begin with a hyphen is no option. -/
theorem classify_of_head?_ne (h : argument.head? ≠ some '-') : classify argument = .ok .plain := by
  unfold classify
  split
  · exact absurd rfl h
  · exact absurd rfl h
  · rfl

/-! ### Options -/

/-- A full name that is designated by something else is a name of the same switch. -/
theorem Designates.eq_of_mem_names {other : Switch} (h : Designates name s)
    (hother : name ∈ other.names) : name ∈ s.names := by
  rcases h with h | ⟨-, hunique⟩
  · exact h
  · obtain rfl : other = s := (hunique other).mp ⟨name, hother, List.prefix_rfl⟩
    exact hother

/-- What is designated is told by the beginnings of long names. -/
theorem filter_all_eq_of_unique (hlong : isLong name = true)
    (h : ∀ other : Switch, (∃ full ∈ other.names, name <+: full) ↔ other = s) :
    (Switch.all.filter fun s => name.isPrefixOf s.longName) = [s] := by
  rw [filter_all_eq_singleton_iff]
  intro other
  rw [List.isPrefixOf_iff_prefix, ← exists_beginning_iff hlong]
  exact h other

/-- A shortened name is read as the one name that it begins. -/
theorem classify_of_unique {attached : Option Text} (h : IsByReadings argument)
    (hcut : cutAtEquals argument = (name, attached)) (hlong : isLong name = true)
    (hunique : ∀ other : Switch, (∃ full ∈ other.names, name <+: full) ↔ other = s) :
    classify argument = .ok (.option s.longName s attached) := by
  have hname : argument.takeWhile (· ≠ '=') = name := by rw [← cutAtEquals_fst, hcut]
  have hlong' : isLong argument = true := by rw [← isLong_takeWhile, hname, hlong]
  rw [h.classify_eq, readings_of_isLong hlong', hname, filter_all_eq_of_unique hlong hunique, hcut]
  rfl

theorem exists_hyphen_of_isLong (h : isLong argument = true) :
    ∃ c rest, argument = '-' :: c :: rest := by
  obtain ⟨rest, rfl⟩ := isLong_iff.mp h
  exact ⟨'-', rest, rfl⟩

/-- A name that designates a switch. -/
theorem exists_classify_bare (h : Designates argument s) :
    ∃ name, classify argument = .ok (.option name s none) := by
  by_cases hfull : ∃ other : Switch, argument ∈ other.names
  · obtain ⟨other, hother⟩ := hfull
    exact ⟨argument, classify_of_mem_names (h.eq_of_mem_names hother)⟩
  · rcases h with h | ⟨hlong, hunique⟩
    · exact absurd ⟨s, h⟩ hfull
    -- no name that it begins holds an equals sign
    have hequals : '=' ∉ argument := by
      obtain ⟨full, hmem, hbegins⟩ := (hunique s).mpr rfl
      exact fun hmem' => Switch.equals_not_mem_of_mem_names hmem (hbegins.subset hmem')
    have hshape : IsByReadings argument := by
      refine ⟨exists_hyphen_of_isLong hlong, fun other hother => hfull ⟨other, hother⟩, ?_⟩
      rintro other name - text rfl
      exact hequals (by simp)
    exact ⟨_, classify_of_unique hshape (cutAtEquals_of_not_mem hequals) hlong hunique⟩

/-- A name that designates a switch, with a text behind an equals sign. -/
theorem exists_classify_joined (hequals : '=' ∉ name) (h : Designates name s) (text : Text) :
    ∃ full, classify (name ++ '=' :: text) = .ok (.option full s (some text)) := by
  by_cases hfull : ∃ other : Switch, name ∈ other.names
  · obtain ⟨other, hother⟩ := hfull
    exact ⟨name, classify_joined (h.eq_of_mem_names hother) text⟩
  · rcases h with h | ⟨hlong, hunique⟩
    · exact absurd ⟨s, h⟩ hfull
    have hcut := cutAtEquals_joined hequals text
    have hshape : IsByReadings (name ++ '=' :: text) := by
      refine ⟨?_, not_mem_names_of_equals_mem (by simp), ?_⟩
      · obtain ⟨c, rest, rfl⟩ := exists_hyphen_of_isLong hlong
        exact ⟨c, rest ++ '=' :: text, rfl⟩
      · intro other name' hname' text' heq
        rw [heq, cutAtEquals_joined (Switch.equals_not_mem_of_mem_names hname')] at hcut
        exact hfull ⟨other, (Prod.mk.inj hcut).1 ▸ hname'⟩
    exact ⟨_, classify_of_unique hshape hcut hlong hunique⟩

section Letter

variable {c : Char} (h : ['-', c] ∈ s.names)
include h

/-- No argument that begins with a letter has two hyphens. -/
theorem isLong_letter (text : Text) : isLong ('-' :: c :: text) = false := by
  have hc : c ≠ '-' := by
    rintro rfl
    have hnone : ∀ s ∈ Switch.all, ['-', '-'] ∉ s.names := by decide
    exact hnone s s.mem_all h
  simp [isLong, List.isPrefixOf, hc.symm]

/-- A full name that begins with a letter is that letter. -/
theorem eq_nil_of_letter_mem_names {text : Text} {other : Switch}
    (hother : '-' :: c :: text ∈ other.names) : text = [] := by
  rcases eq_longName_or_length hother with ⟨hlong, -⟩ | ⟨-, hlength⟩
  · rw [isLong_letter h] at hlong
    exact absurd hlong (by decide)
  · exact List.length_eq_zero_iff.mp (by simpa using hlength)

/-- A letter with a text attached to it. -/
theorem classify_letter {text : Text} (hne : text ≠ []) (hequals : text.head? ≠ some '=') :
    classify ('-' :: c :: text) = .ok (.option ['-', c] s (some text)) := by
  have hshape : IsByReadings ('-' :: c :: text) := by
    refine ⟨⟨c, text, rfl⟩, fun other hother => hne (eq_nil_of_letter_mem_names h hother), ?_⟩
    intro other name hname text' heq
    obtain ⟨c', rest, rfl⟩ := exists_eq_hyphen_of_mem_names hname
    obtain ⟨rfl, rfl⟩ : c = c' ∧ text = rest ++ '=' :: text' := by simpa using heq
    obtain rfl : rest = [] := eq_nil_of_letter_mem_names h hname
    exact hequals rfl
  rw [hshape.classify_eq, readings_of_not_isLong (isLong_letter h text)]
  show Kind.ofReadings _ ((Switch.named? ['-', c]).toList.map _) = _
  rw [Switch.named?_eq_some_iff.mpr h]
  rfl

end Letter

/-- An argument that names a switch is told as an option of that switch. -/
theorem exists_classify_of_names {attached : Option Text} (h : Names argument s attached) :
    ∃ name, classify argument = .ok (.option name s attached) := by
  cases h with
  | bare h => exact exists_classify_bare h
  | joined hequals h => exact exists_classify_joined hequals h _
  | letter hletter hne hequals => exact ⟨_, classify_letter hletter hne hequals⟩

/-- Readings that come to an option are one reading. -/
theorem Kind.ofReadings_eq_option_iff {readings : List (Text × Switch × Option Text)}
    {attached : Option Text} :
    ofReadings argument readings = .ok (.option name s attached) ↔
      readings = [(name, s, attached)] := by
  rcases readings with _ | ⟨⟨name', s', attached'⟩, _ | ⟨second, rest⟩⟩
  · refine iff_of_false (fun h => ?_) (by simp)
    rw [ofReadings] at h
    split at h <;> exact nomatch Except.ok.inj h
  · simp [ofReadings]
  · exact iff_of_false (fun h => nomatch h) (by simp)

/-- One reading is that of a shortened name, or of a letter and what is behind it. -/
theorem IsByReadings.names_of_readings_eq {attached : Option Text} (h : IsByReadings argument)
    (hreadings : readings argument = [(name, s, attached)]) :
    name ∈ s.names ∧ Names argument s attached := by
  rcases hlong : isLong argument with _ | _
  · rw [readings_of_not_isLong hlong] at hreadings
    obtain ⟨c, text, rfl⟩ := h.hyphen
    have hletter : ['-', c] ∈ s.names ∧ name = ['-', c] ∧ attached = some text := by
      rcases hnamed : Switch.named? ['-', c] with _ | s'
      · change (Switch.named? ['-', c]).toList.map _ = _ at hreadings
        rw [hnamed] at hreadings
        exact nomatch hreadings
      · change (Switch.named? ['-', c]).toList.map _ = _ at hreadings
        rw [hnamed] at hreadings
        obtain ⟨hname, hs, hattached⟩ : ['-', c] = name ∧ s' = s ∧ some text = attached := by
          simpa using hreadings
        exact ⟨Switch.named?_eq_some_iff.mp (hs ▸ hnamed), hname.symm, hattached.symm⟩
    obtain ⟨hletter, rfl, rfl⟩ := hletter
    refine ⟨hletter, .letter hletter ?_ ?_⟩
    · rintro rfl
      exact h.not_name s hletter
    · intro hhead
      obtain ⟨rest, rfl⟩ : ∃ rest, text = '=' :: rest := List.head?_eq_some_iff.mp hhead
      exact h.not_joined s _ hletter rest rfl
  · rw [readings_of_isLong hlong, List.map_eq_singleton_iff] at hreadings
    obtain ⟨s', hfilter, heq⟩ := hreadings
    obtain ⟨rfl, hrest⟩ := Prod.mk.inj heq
    obtain ⟨rfl, rfl⟩ := Prod.mk.inj hrest
    refine ⟨s'.longName_mem_names, ?_⟩
    have hbeginning : isLong (argument.takeWhile (· ≠ '=')) = true :=
      (isLong_takeWhile argument).trans hlong
    have hdesignates : Designates (argument.takeWhile (· ≠ '=')) s' := by
      refine .inr ⟨hbeginning, fun other => ?_⟩
      rw [exists_beginning_iff hbeginning, ← List.isPrefixOf_iff_prefix]
      exact filter_all_eq_singleton_iff.mp hfilter other
    rw [← cutAtEquals_fst] at hdesignates
    by_cases hequals : '=' ∈ argument
    · obtain ⟨name, text, rfl, hname⟩ := List.eq_append_cons_of_mem hequals
      rw [cutAtEquals_joined hname] at hdesignates ⊢
      exact .joined hname hdesignates
    · rw [cutAtEquals_of_not_mem hequals] at hdesignates ⊢
      exact .bare hdesignates

/-- **An option** that an argument is told as is a name of a switch that the argument names. -/
theorem of_classify_eq_option {attached : Option Text}
    (h : classify argument = .ok (.option name s attached)) :
    name ∈ s.names ∧ Names argument s attached := by
  rcases shape_cases argument with hplain | ⟨s', hs'⟩ | ⟨s', name', hname', text, rfl⟩ | hshape
  · have hkind : classify argument = .ok .plain := by
      rcases hplain with hplain | rfl
      · exact classify_of_head?_ne hplain
      · rfl
    rw [hkind] at h
    exact nomatch h
  · rw [classify_of_mem_names hs'] at h
    obtain ⟨rfl, rfl, rfl⟩ := Kind.option.inj (Except.ok.inj h)
    exact ⟨hs', .bare (.inl hs')⟩
  · rw [classify_joined hname'] at h
    obtain ⟨rfl, rfl, rfl⟩ := Kind.option.inj (Except.ok.inj h)
    exact ⟨hname', .joined (Switch.equals_not_mem_of_mem_names hname') (.inl hname')⟩
  · rw [hshape.classify_eq, Kind.ofReadings_eq_option_iff] at h
    exact hshape.names_of_readings_eq h

/-- **Options** are the arguments that name a switch. -/
theorem exists_classify_iff {attached : Option Text} :
    (∃ name, classify argument = .ok (.option name s attached)) ↔ Names argument s attached :=
  ⟨fun ⟨_, h⟩ => (of_classify_eq_option h).2, exists_classify_of_names⟩

/-! ### Plain arguments -/

/-- A full name suggests its switch, also in front of an equals sign. -/
theorem suggests_of_mem_names (h : name ∈ s.names) : Suggests name s := by
  have hall : ∀ s ∈ Switch.all, ∀ name ∈ s.names,
      if isLong name then name.takeWhile (· ≠ '=') = name else name.take 2 = name := by decide
  have hname := hall s s.mem_all name h
  refine ⟨name, h, ?_⟩
  split <;> rename_i hlong
  · rw [if_pos hlong] at hname
    exact hname ▸ List.takeWhile_prefix _
  · rwa [if_neg hlong] at hname

theorem suggests_joined (h : name ∈ s.names) (text : Text) : Suggests (name ++ '=' :: text) s := by
  have htake : (name ++ '=' :: text).takeWhile (· ≠ '=') = name := by
    rw [← cutAtEquals_fst, cutAtEquals_joined (Switch.equals_not_mem_of_mem_names h)]
  refine ⟨name, h, ?_⟩
  rw [← isLong_takeWhile, htake]
  rcases eq_longName_or_length h with ⟨hlong, -⟩ | ⟨hshort, hlength⟩
  · have hself : name <+: name := List.prefix_rfl
    simpa only [if_pos hlong] using hself
  · rw [hshort, ← hlength]
    exact List.take_left

/-- **Plain arguments** are taken as they are. -/
theorem classify_eq_plain_iff : classify argument = .ok .plain ↔ IsPlain argument := by
  have hnot : ∀ {s : Switch}, Suggests argument s → argument.head? = some '-' → argument ≠ "-" →
      ¬ IsPlain argument := by
    rintro s hsuggests hhead hne (h | h | ⟨h, -⟩)
    · exact h hhead
    · exact hne h
    · exact h s hsuggests
  rcases shape_cases argument with h | ⟨s, h⟩ | ⟨s, name, h, text, rfl⟩ | h
  · rcases h with h | rfl
    · exact iff_of_true (classify_of_head?_ne h) (.inl h)
    · exact iff_of_true rfl (.inr (.inl rfl))
  · rw [classify_of_mem_names h]
    refine iff_of_false (fun heq => nomatch heq) ?_
    obtain ⟨c, rest, rfl⟩ := exists_eq_hyphen_of_mem_names h
    exact hnot (suggests_of_mem_names h) rfl (fun heq => nomatch heq)
  · rw [classify_joined h]
    refine iff_of_false (fun heq => nomatch heq) ?_
    have hsuggests := suggests_joined h text
    obtain ⟨c, rest, rfl⟩ := exists_eq_hyphen_of_mem_names h
    exact hnot hsuggests rfl (fun heq => nomatch heq)
  · obtain ⟨c, rest, hargument⟩ := h.hyphen
    have hplain : IsPlain argument ↔
        readings argument = [] ∧ (isNegativeNumber argument = true ∨ ' ' ∈ argument) := by
      rw [IsPlain, readings_eq_nil_iff, or_iff_right (by simp [hargument]),
        or_iff_right (by rw [hargument]; exact fun heq => nomatch heq)]
    rw [h.classify_eq, hplain]
    rcases readings argument with _ | ⟨⟨name, s, attached⟩, _ | ⟨second, more⟩⟩
    · rw [Kind.ofReadings, and_iff_right rfl]
      split <;> rename_i hvalue
      · exact iff_of_true rfl hvalue
      · exact iff_of_false (fun heq => nomatch heq) hvalue
    · exact iff_of_false (fun heq => nomatch heq) (by simp)
    · exact iff_of_false (fun heq => nomatch heq) (by simp)

end Classify

end Options
end LineShell
