import Mathlib.Algebra.BigOperators.Intervals
import Mathlib.Algebra.Order.BigOperators.Group.Finset
import Mathlib.Tactic.Abel
import QuickjsBackend.Foundation.Slots

/-! # Total weight of an interval of slots

Slots live in a vector that only grows; a slot that is not there yet counts as
the blank value, which weighs nothing. The weight of an interval is additive
over splits and unchanged by writes outside it.
-/

namespace Foundation

variable {α M : Type*} [AddCommMonoid M] (weight : α → M) (blank : α)

/-- Total weight of the slots with index in `[lo, hi)`. -/
def span (slots : List α) (lo hi : Nat) : M :=
  ∑ i ∈ Finset.Ico lo hi, weight (slots.getD i blank)

variable {weight blank} {slots : List α} {lo mid hi index : Nat} {value : α}

@[simp] theorem span_self : span weight blank slots lo lo = 0 := by
  simp [span]

theorem span_add_span (hlo : lo ≤ mid) (hhi : mid ≤ hi) :
    span weight blank slots lo mid + span weight blank slots mid hi =
      span weight blank slots lo hi :=
  Finset.sum_Ico_consecutive _ hlo hhi

theorem span_succ (hle : lo ≤ hi) :
    span weight blank slots lo (hi + 1) =
      span weight blank slots lo hi + weight (slots.getD hi blank) :=
  Finset.sum_Ico_succ_top hle _

/-- Splitting out one slot of the interval. -/
theorem span_split (hlo : lo ≤ index) (hhi : index < hi) :
    span weight blank slots lo hi = span weight blank slots lo index +
      weight (slots.getD index blank) + span weight blank slots (index + 1) hi := by
  rw [← span_succ hlo, span_add_span (Nat.le_succ_of_le hlo) hhi]

/-- A write outside the interval is not seen. -/
theorem span_set_of_outside (houtside : index < lo ∨ hi ≤ index) :
    span weight blank (slots.set index value) lo hi = span weight blank slots lo hi := by
  apply Finset.sum_congr rfl
  intro i hi'
  have hbounds := Finset.mem_Ico.mp hi'
  have hne : index ≠ i := by omega
  rw [getD_set_of_ne hne]

/-- A write inside the interval trades the weight of the old value for that of
the new one. -/
theorem span_set (hlo : lo ≤ index) (hhi : index < hi) (hlength : index < slots.length) :
    span weight blank (slots.set index value) lo hi + weight (slots.getD index blank) =
      span weight blank slots lo hi + weight value := by
  rw [span_split hlo hhi, span_split hlo hhi, getD_set_self hlength,
    span_set_of_outside (Or.inr (le_refl index)),
    span_set_of_outside (Or.inl (Nat.lt_succ_self index))]
  abel

/-- A value at the end of the vector adds its weight. -/
theorem span_append (hlo : lo ≤ slots.length) :
    span weight blank (slots ++ [value]) lo (slots.length + 1) =
      span weight blank slots lo slots.length + weight value := by
  rw [span_succ hlo, getD_concat_length]
  congr 1
  apply Finset.sum_congr rfl
  intro i hi
  have hlt := (Finset.mem_Ico.mp hi).2
  rw [List.getD_append _ _ _ _ hlt]

/-- Growing the vector by a blank slot changes no interval. -/
theorem span_append_blank :
    span weight blank (slots ++ [blank]) lo hi = span weight blank slots lo hi := by
  apply Finset.sum_congr rfl
  intro i _
  congr 1
  rcases Nat.lt_trichotomy i slots.length with hlt | heq | hgt
  · exact List.getD_append _ _ _ _ hlt
  · rw [heq, getD_concat_length, List.getD_eq_default _ _ (le_refl _)]
  · have hlength : (slots ++ [blank]).length ≤ i := by simpa using hgt
    rw [List.getD_eq_default _ _ hlength, List.getD_eq_default _ _ (Nat.le_of_lt hgt)]

theorem span_nonneg {M : Type*} [AddCommMonoid M] [PartialOrder M] [IsOrderedAddMonoid M]
    {weight : α → M} (hweight : ∀ value, 0 ≤ weight value) :
    0 ≤ span weight blank slots lo hi :=
  Finset.sum_nonneg fun _ _ => hweight _

/-- A slot weighs at most as much as an interval around it. -/
theorem le_span {M : Type*} [AddCommMonoid M] [PartialOrder M] [IsOrderedAddMonoid M]
    {weight : α → M} (hweight : ∀ value, 0 ≤ weight value) (hlo : lo ≤ index) (hhi : index < hi) :
    weight (slots.getD index blank) ≤ span weight blank slots lo hi :=
  Finset.single_le_sum (f := fun i => weight (slots.getD i blank)) (fun _ _ => hweight _)
    (Finset.mem_Ico.mpr ⟨hlo, hhi⟩)

/-- An interval weighs nothing exactly when none of its slots does. -/
theorem span_eq_zero_iff {M : Type*} [AddCommMonoid M] [PartialOrder M] [IsOrderedAddMonoid M]
    {weight : α → M} (hweight : ∀ value, 0 ≤ weight value) :
    span weight blank slots lo hi = 0 ↔
      ∀ i, lo ≤ i → i < hi → weight (slots.getD i blank) = 0 := by
  unfold span
  rw [Finset.sum_eq_zero_iff_of_nonneg fun _ _ => hweight _]
  simp only [Finset.mem_Ico, and_imp]

/-- A sum over an interval from zero of which one term changes. -/
theorem sum_range_change {M : Type*} [AddCommGroup M] {f g : Nat → M} (hindex : index < hi)
    (hother : ∀ i, i ≠ index → g i = f i) :
    ∑ i ∈ Finset.range hi, g i = ∑ i ∈ Finset.range hi, f i - f index + g index := by
  have hmem : index ∈ Finset.range hi := Finset.mem_range.mpr hindex
  have hrest : ∑ i ∈ (Finset.range hi).erase index, g i =
      ∑ i ∈ (Finset.range hi).erase index, f i :=
    Finset.sum_congr rfl fun i hi' => hother i (Finset.ne_of_mem_erase hi')
  rw [← Finset.add_sum_erase _ g hmem, ← Finset.add_sum_erase _ f hmem, hrest]
  abel

end Foundation
