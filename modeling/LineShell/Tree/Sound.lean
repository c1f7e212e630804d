/-
# LineShell.Tree.Sound -- trees that hang together

In a sound tree everything stands in a directory, and every name on the way to it can
stand in a path: it is not empty and neither `.` nor `..`, holds no slash and no NUL, and
is not too long. The empty tree is sound (`isSound_empty`), and putting an entry
where a directory holds it keeps a tree sound, unless it takes the place of a directory
(`IsSound.put`).
-/

import LineShell.Tree.Follow

namespace LineShell

/-- **Name** — a text that can stand for an entry of a directory. -/
structure IsName (name : Text) : Prop where
  ne_nil : name ≠ []
  ne_stay : name ≠ ['.']
  ne_up : name ≠ ['.', '.']
  slash_not_mem : '/' ∉ name
  nul_not_mem : '\x00' ∉ name
  byteLength_le : Text.byteLength name ≤ nameLimit

namespace Tree

/-- **Sound** — every entry stands in a directory and is reached by names. -/
structure IsSound (t : Tree) : Prop where
  isName : ∀ {place name}, (t.at? place).isSome → name ∈ place → IsName name
  isDirectory_above : ∀ {name above}, (t.at? (name :: above)).isSome → t.isDirectory above

theorem isDirectory_nil (t : Tree) : t.isDirectory [] := by simp [isDirectory]

theorem isSome_of_isDirectory {t : Tree} {place : Location} (h : t.isDirectory place) :
    (t.at? place).isSome := by
  simp only [isDirectory, decide_eq_true_eq] at h
  simp [h]

instance (name : Text) : Decidable (IsName name) :=
  decidable_of_iff (name ≠ [] ∧ name ≠ ['.'] ∧ name ≠ ['.', '.'] ∧ '/' ∉ name ∧ '\x00' ∉ name
      ∧ Text.byteLength name ≤ nameLimit)
    ⟨fun ⟨a, b, c, d, e, f⟩ => ⟨a, b, c, d, e, f⟩,
      fun ⟨a, b, c, d, e, f⟩ => ⟨a, b, c, d, e, f⟩⟩

/-- Where the entries of the empty tree stand. -/
def emptyPlaces : List Location := empty.entries.map (·.1.2)

/-- The locations of the empty tree. -/
theorem mem_of_isSome_empty {place : Location} (h : (empty.at? place).isSome) :
    place = [] ∨ place ∈ emptyPlaces := by
  by_cases h0 : place = []
  · exact .inl h0
  · simp only [at?, h0, if_false] at h
    obtain ⟨entry, he⟩ := Option.isSome_iff_exists.1 h
    obtain ⟨before, after, he, -⟩ := List.lookup_eq_some_iff.1 he
    exact .inr (List.mem_map.2 ⟨(place.key, entry), by rw [he]; simp, rfl⟩)

theorem isName_of_mem_emptyPlaces :
    ∀ place ∈ emptyPlaces, ∀ name ∈ place, IsName name := by decide +kernel

theorem isDirectory_tail_of_mem_emptyPlaces :
    ∀ place ∈ emptyPlaces, empty.isDirectory place.tail := by decide +kernel

theorem isSound_empty : empty.IsSound where
  isName h hm := by
    rcases mem_of_isSome_empty h with rfl | h
    · simp at hm
    · exact isName_of_mem_emptyPlaces _ h _ hm
  isDirectory_above h := by
    rcases mem_of_isSome_empty h with h | h
    · simp at h
    · exact isDirectory_tail_of_mem_emptyPlaces _ h

/-- A tree stays sound when an entry is put into a directory and no directory is lost. -/
theorem IsSound.put {t : Tree} (h : t.IsSound) {name : Text} {above : Location} {entry : Entry}
    (hname : IsName name) (habove : t.isDirectory above)
    (hkeep : t.isDirectory (name :: above) → entry = .directory) :
    (t.put (name :: above) entry).IsSound where
  isName := by
    intro place other hs hm
    rw [at?_put _ _ _ _ (by simp)] at hs
    split at hs
    · rename_i e
      subst e
      rcases List.mem_cons.1 hm with rfl | hm
      · exact hname
      · exact h.isName (isSome_of_isDirectory habove) hm
    · exact h.isName hs hm
  isDirectory_above := by
    intro other outer hs
    have hold : t.isDirectory outer := by
      rw [at?_put _ _ _ _ (by simp)] at hs
      split at hs
      · rename_i e
        obtain ⟨-, rfl⟩ := List.cons.inj e
        exact habove
      · exact h.isDirectory_above hs
    simp only [isDirectory, decide_eq_true_eq]
    rw [at?_put _ _ _ _ (by simp)]
    split
    · rename_i e
      rw [hkeep (e ▸ hold)]
    · simpa [isDirectory] using hold

end Tree
end LineShell
