import Mathlib.Data.List.GetD

/-! # Vectors of slots

Slots that are not there count as blank. A table is a vector of optional entries,
blank where an entry is not there or has been removed.
-/

namespace Foundation

variable {α : Type*} {slots : List α} {blank value : α} {index other : Nat}

theorem getD_set_self (hindex : index < slots.length) :
    (slots.set index value).getD index blank = value := by
  rw [List.getD_eq_getElem?_getD, List.getElem?_set_self hindex, Option.getD_some]

theorem getD_set_of_ne (hne : index ≠ other) :
    (slots.set index value).getD other blank = slots.getD other blank := by
  rw [List.getD_eq_getElem?_getD, List.getElem?_set_ne hne, List.getD_eq_getElem?_getD]

theorem getD_concat_length : (slots ++ [value]).getD slots.length blank = value := by
  simp

variable {table : List (Option α)} {entry : Option α} {found : α}

theorem lt_length_of_getD (hfound : table.getD index none = some found) :
    index < table.length := by
  refine Nat.lt_of_not_le fun hge => ?_
  rw [List.getD_eq_default _ _ hge] at hfound
  cases hfound

/-- An entry found after a write is the one written or was there before. -/
theorem getD_set_cases (hfound : (table.set index entry).getD other none = some found) :
    other = index ∧ entry = some found ∨ table.getD other none = some found := by
  by_cases heq : index = other
  · subst other
    have hlt := lt_length_of_getD hfound
    rw [List.length_set] at hlt
    rw [getD_set_self hlt] at hfound
    exact Or.inl ⟨rfl, hfound⟩
  · rw [getD_set_of_ne heq] at hfound
    exact Or.inr hfound

/-- The same for an entry that was added at the end. -/
theorem getD_concat_cases (hfound : (table ++ [entry]).getD other none = some found) :
    other = table.length ∧ entry = some found ∨ table.getD other none = some found := by
  have hlt := lt_length_of_getD hfound
  rw [List.length_append, List.length_singleton] at hlt
  by_cases heq : other = table.length
  · subst other
    rw [getD_concat_length] at hfound
    exact Or.inl ⟨rfl, hfound⟩
  · rw [List.getD_append _ _ _ _ (by omega)] at hfound
    exact Or.inr hfound

theorem getD_set_none (table : List (Option α)) (index other : Nat) :
    (table.set index none).getD other none =
      if other = index then none else table.getD other none := by
  split
  · subst other
    by_cases hlt : index < table.length
    · exact getD_set_self hlt
    · exact List.getD_eq_default _ _ (by simpa using hlt)
  · exact getD_set_of_ne (Ne.symm ‹_›)

theorem getD_concat (table : List (Option α)) (entry : Option α) (other : Nat) :
    (table ++ [entry]).getD other none =
      if other = table.length then entry else table.getD other none := by
  split
  · subst other
    exact getD_concat_length
  · rename_i hne
    by_cases hlt : other < table.length
    · exact List.getD_append _ _ _ _ hlt
    · have hlast : (table ++ [entry]).length ≤ other := by
        rw [List.length_append, List.length_singleton]
        exact Nat.lt_of_le_of_ne (Nat.le_of_not_lt hlt) (Ne.symm hne)
      rw [List.getD_eq_default _ _ hlast, List.getD_eq_default _ _ (Nat.le_of_not_lt hlt)]

end Foundation
