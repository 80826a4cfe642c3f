import Mathlib.Algebra.Order.BigOperators.Group.List
import Mathlib.Data.Nat.Notation
import Mathlib.Tactic.Abel

/-! # Maps kept as sorted lists

An ordered map with unique keys, iterated in the order of its keys; assigning to
a key replaces the value that was there.
-/

namespace Foundation

variable {κ α M : Type*} [DecidableEq κ] [LT κ] [DecidableLT κ]

/-- `map[key] = value`. -/
def assign (key : κ) (value : α) : List (κ × α) → List (κ × α)
  | [] => [(key, value)]
  | (other, old) :: rest =>
      if key = other then (key, value) :: rest
      else if key < other then (key, value) :: (other, old) :: rest
      else (other, old) :: assign key value rest

variable {key : κ} {value : α} {map : List (κ × α)}

theorem mem_assign {entry : κ × α} (hmem : entry ∈ assign key value map) :
    entry = (key, value) ∨ entry ∈ map := by
  induction map with
  | nil => exact Or.inl (List.mem_singleton.mp hmem)
  | cons head rest ih =>
      simp only [assign] at hmem
      split at hmem
      · exact (List.mem_cons.mp hmem).imp_right (List.mem_cons_of_mem head)
      · split at hmem
        · exact List.mem_cons.mp hmem
        · rcases List.mem_cons.mp hmem with hhead | hrest
          · exact Or.inr (hhead ▸ List.mem_cons_self)
          · exact (ih hrest).imp_right (List.mem_cons_of_mem head)

omit [LT κ] [DecidableLT κ] in
theorem lookup_cons_eq_ite (other : κ) :
    ((key, value) :: map).lookup other = if other = key then some value else map.lookup other := by
  rw [List.lookup_cons]
  by_cases heq : other = key
  · rw [if_pos heq, beq_iff_eq.mpr heq]
  · rw [if_neg heq, beq_eq_false_iff_ne.mpr heq]

theorem lookup_assign (other : κ) :
    (assign key value map).lookup other = if other = key then some value else map.lookup other := by
  induction map with
  | nil => exact lookup_cons_eq_ite other
  | cons head rest ih =>
      obtain ⟨found, old⟩ := head
      simp only [assign]
      split
      next heq =>
        subst heq
        rw [lookup_cons_eq_ite, lookup_cons_eq_ite]
        by_cases hother : other = key
        · rw [if_pos hother, if_pos hother]
        · rw [if_neg hother, if_neg hother, if_neg hother]
      next hne =>
        split
        next => exact lookup_cons_eq_ite other
        next =>
          rw [lookup_cons_eq_ite, lookup_cons_eq_ite, ih]
          by_cases hfound : other = found
          · have hother : other ≠ key := fun h => hne (h.symm.trans hfound)
            rw [if_pos hfound, if_pos hfound, if_neg hother]
          · rw [if_neg hfound, if_neg hfound]

/-- The keys stay in their order. -/
theorem sorted_assign [IsTrans κ (· < ·)] [Std.Trichotomous fun first second : κ => first < second]
    (hsorted : (map.map Prod.fst).Pairwise (· < ·)) :
    ((assign key value map).map Prod.fst).Pairwise (· < ·) := by
  induction map with
  | nil => exact List.pairwise_singleton _ _
  | cons head rest ih =>
      obtain ⟨found, old⟩ := head
      rw [List.map_cons, List.pairwise_cons] at hsorted
      obtain ⟨hfound, hrest⟩ := hsorted
      simp only [assign]
      split
      next heq =>
        subst heq
        exact List.pairwise_cons.mpr ⟨hfound, hrest⟩
      next hne =>
        split
        next hlt =>
          refine List.pairwise_cons.mpr ⟨fun other hmem => ?_, List.pairwise_cons.mpr
            ⟨hfound, hrest⟩⟩
          rcases List.mem_cons.mp hmem with rfl | hmem
          · exact hlt
          · exact IsTrans.trans _ _ _ hlt (hfound other hmem)
        next hge =>
          refine List.pairwise_cons.mpr ⟨fun other hmem => ?_, ih hrest⟩
          obtain ⟨entry, hentry, rfl⟩ := List.mem_map.mp hmem
          rcases mem_assign hentry with rfl | hentry
          · exact (trichotomous_of (· < ·) found key).resolve_right fun h =>
              h.elim (fun h => hne h.symm) hge
          · exact hfound _ (List.mem_map_of_mem hentry)

/-- A key that is not there is added to the others. -/
theorem assign_perm_cons (hnone : map.lookup key = none) :
    (assign key value map).Perm ((key, value) :: map) := by
  induction map with
  | nil => exact List.Perm.refl _
  | cons head rest ih =>
      obtain ⟨found, old⟩ := head
      rw [lookup_cons_eq_ite] at hnone
      have hne : key ≠ found := by
        intro heq
        simp [heq] at hnone
      have hrest : rest.lookup key = none := by rwa [if_neg hne] at hnone
      simp only [assign, hne, if_false]
      split
      · exact List.Perm.refl _
      · exact ((ih hrest).cons (found, old)).trans (List.Perm.swap _ _ _)

theorem nodup_keys_assign (hnodup : (map.map Prod.fst).Nodup) (hnone : map.lookup key = none) :
    ((assign key value map).map Prod.fst).Nodup := by
  have hperm : ((assign key value map).map Prod.fst).Perm (key :: map.map Prod.fst) :=
    (assign_perm_cons hnone).map Prod.fst
  rw [hperm.nodup_iff, List.nodup_cons]
  refine ⟨fun hmem => ?_, hnodup⟩
  obtain ⟨⟨found, old⟩, hentry, heq⟩ := List.mem_map.mp hmem
  have hother := List.lookup_eq_none_iff.mp hnone _ hentry
  exact absurd heq.symm (by simpa using hother)

/-- A new value weighs at most as much more as it weighs itself. -/
theorem sum_assign_le [AddCommMonoid M] [PartialOrder M] [IsOrderedAddMonoid M]
    {weight : κ × α → M} (hweight : ∀ entry, 0 ≤ weight entry) :
    ((assign key value map).map weight).sum ≤ (map.map weight).sum + weight (key, value) := by
  induction map with
  | nil => simp [assign]
  | cons head rest ih =>
      simp only [assign]
      split
      · simp only [List.map_cons, List.sum_cons]
        rw [add_comm (weight head + _)]
        exact add_le_add_right (le_add_of_nonneg_left (hweight head)) _
      · split
        · simp only [List.map_cons, List.sum_cons]
          rw [add_comm (weight (key, value))]
        · simp only [List.map_cons, List.sum_cons, add_assoc]
          exact add_le_add_right ih _

end Foundation
