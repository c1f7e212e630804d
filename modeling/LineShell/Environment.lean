/-
# LineShell.Environment -- variables

An environment gives texts to variable names. It is a list of pairs in which the first
pair with a name counts.
-/

import LineShell.Text.Basic

namespace LineShell

/-- **Environment** — the variables of a process or of a shell session. -/
abbrev Environment := List (Text × Text)

namespace Environment

/-- The value of a variable. -/
def value? (environment : Environment) (name : Text) : Option Text := environment.lookup name

/-- The environment without a variable. -/
def without (environment : Environment) (name : Text) : Environment :=
  environment.filter (·.1 ≠ name)

/-- The environment with a variable set. -/
def withValue (environment : Environment) (name value : Text) : Environment :=
  (name, value) :: environment.without name

theorem value?_cons (name value : Text) (rest : Environment) (other : Text) :
    value? ((name, value) :: rest) other
      = if other = name then some value else value? rest other := by
  by_cases h : other = name
  · simp [value?, h]
  · have hb : (other == name) = false := by simp [h]
    simp [value?, List.lookup_cons, hb, h]

theorem value?_without (environment : Environment) (name other : Text) :
    (environment.without name).value? other
      = if other = name then none else environment.value? other := by
  induction environment with
  | nil => simp [without, value?]
  | cons pair rest ih =>
    obtain ⟨key, value⟩ := pair
    by_cases hk : key = name
    · have hw : without ((key, value) :: rest) name = without rest name := by
        simp [without, hk]
      rw [hw, ih, value?_cons]
      split <;> simp_all
    · have hw : without ((key, value) :: rest) name = (key, value) :: without rest name := by
        simp [without, hk]
      rw [hw, value?_cons, value?_cons, ih]
      split <;> simp_all

theorem value?_withValue (environment : Environment) (name value other : Text) :
    (environment.withValue name value).value? other
      = if other = name then some value else environment.value? other := by
  rw [withValue, value?_cons, value?_without]
  split <;> rfl

end Environment
end LineShell
