import Mathlib.Data.List.GetD
import Mathlib.Data.List.Basic
import Mathlib.Data.List.Nodup
import Mathlib.Logic.Function.Basic

/-! # Chains of slots

The slots of a table that share a bucket are chained by their indices. A link is one more
than an index, and zero ends a chain. A table that is filled from its first slot on links
each new slot in front, so that a chain names the slots of its bucket, the last one first.
-/

namespace Foundation

/-- Go along a chain to the first slot that is wanted, and name the one before it; without
an answer when the chain goes on after so many slots. -/
def seek (next : Nat → Nat) (wanted : Nat → Bool) :
    Nat → Option Nat → Nat → Option (Option (Option Nat × Nat))
  | _, _, 0 => some none
  | 0, _, _ + 1 => none
  | fuel + 1, previous, index + 1 =>
      if wanted index then some (some (previous, index))
      else seek next wanted fuel (some index) (next index)

/-- The link leads through these slots to the end. -/
inductive Chain (next : Nat → Nat) : Nat → List Nat → Prop
  | nil : Chain next 0 []
  | cons {index : Nat} {rest : List Nat} (hrest : Chain next (next index) rest) :
      Chain next (index + 1) (index :: rest)

variable {next later : Nat → Nat} {wanted : Nat → Bool} {link index fuel : Nat}
  {slots before after : List Nat} {previous : Option Nat}

namespace Chain

theorem congr (hchain : Chain next link slots) (hnext : ∀ i ∈ slots, later i = next i) :
    Chain later link slots := by
  induction hchain with
  | nil => exact .nil
  | @cons i rest hrest ih =>
      refine .cons ?_
      rw [hnext i List.mem_cons_self]
      exact ih fun j hj => hnext j (List.mem_cons_of_mem _ hj)

/-- A link leads to the slot behind it. -/
theorem head (hchain : Chain next link (index :: after)) :
    link = index + 1 ∧ Chain next (next index) after := by
  cases hchain with
  | cons hrest => exact ⟨rfl, hrest⟩

theorem link_le {count : Nat} (hchain : Chain next link slots) (hslots : ∀ i ∈ slots, i < count) :
    link ≤ count := by
  cases hchain with
  | nil => exact Nat.zero_le count
  | @cons i rest hrest => exact hslots i List.mem_cons_self

/-- The slot at the head is taken out. -/
theorem unlink_head (hchain : Chain next link (index :: after)) : Chain next (next index) after :=
  hchain.head.2

/-- A slot behind another is taken out. -/
theorem unlink {prior : Nat} (hchain : Chain next link (before ++ prior :: index :: after))
    (hnodup : (before ++ prior :: index :: after).Nodup) :
    Chain (Function.update next prior (next index)) link (before ++ prior :: after) := by
  induction before generalizing link with
  | nil =>
      obtain ⟨rfl, hrest⟩ := hchain.head
      have hprior : prior ∉ after := fun hmem =>
        (List.nodup_cons.mp hnodup).1 (List.mem_cons_of_mem _ hmem)
      refine .cons ?_
      rw [Function.update_self]
      refine hrest.unlink_head.congr fun i hi => Function.update_of_ne (fun heq => ?_) _ _
      exact hprior (heq ▸ hi)
  | cons first before ih =>
      obtain ⟨rfl, hrest⟩ := hchain.head
      have hne : first ≠ prior := fun heq =>
        (List.nodup_cons.mp hnodup).1 (by simp [heq])
      refine .cons ?_
      rw [Function.update_of_ne hne]
      exact ih hrest (List.nodup_cons.mp hnodup).2

theorem seek_eq_none (hchain : Chain next link slots) (hfuel : slots.length ≤ fuel)
    (hnone : ∀ i ∈ slots, wanted i = false) : seek next wanted fuel previous link = some none := by
  induction hchain generalizing fuel previous with
  | nil => simp [seek]
  | @cons i rest hrest ih =>
      obtain ⟨fuel, rfl⟩ : ∃ n, fuel = n + 1 := ⟨fuel - 1, by simp at hfuel; omega⟩
      rw [seek, hnone i List.mem_cons_self]
      exact ih (Nat.le_of_succ_le_succ hfuel) fun j hj => hnone j (List.mem_cons_of_mem _ hj)

/-- The first slot that is wanted is found with the one before it. -/
theorem seek_eq_some (hchain : Chain next link (before ++ index :: after))
    (hfuel : (before ++ index :: after).length ≤ fuel) (hwanted : wanted index = true)
    (hbefore : ∀ i ∈ before, wanted i = false) :
    seek next wanted fuel previous link = some (some (before.getLast?.or previous, index)) := by
  induction before generalizing link fuel previous with
  | nil =>
      obtain ⟨rfl, -⟩ := hchain.head
      obtain ⟨fuel, rfl⟩ : ∃ n, fuel = n + 1 := ⟨fuel - 1, by simp at hfuel; omega⟩
      rw [seek, hwanted]
      rfl
  | cons first before ih =>
      obtain ⟨rfl, hrest⟩ := hchain.head
      obtain ⟨fuel, rfl⟩ : ∃ n, fuel = n + 1 := ⟨fuel - 1, by simp at hfuel; omega⟩
      rw [seek, hbefore first List.mem_cons_self]
      have hlast : ((first :: before).getLast?).or previous =
          before.getLast?.or (some first) := by
        cases before with
        | nil => rfl
        | cons second before => simp [List.getLast?_cons]
      rw [hlast]
      exact ih hrest (Nat.le_of_succ_le_succ hfuel) fun j hj =>
        hbefore j (List.mem_cons_of_mem _ hj)

end Chain

/-- The slots below `count` of one bucket, the last one first. -/
def slotsOf (place : Nat → Option Nat) (count bucket : Nat) : List Nat :=
  ((List.range count).filter fun i => place i == some bucket).reverse

/-- From each head the chain goes through the slots of the bucket. -/
def Indexed (heads : List Nat) (next : Nat → Nat) (place : Nat → Option Nat) (count : Nat) : Prop :=
  ∀ bucket, bucket < heads.length →
    Chain next (heads.getD bucket 0) (slotsOf place count bucket)

variable {heads : List Nat} {place placed : Nat → Option Nat} {count bucket : Nat}

theorem mem_slotsOf : index ∈ slotsOf place count bucket ↔
    index < count ∧ place index = some bucket := by
  simp [slotsOf]

theorem nodup_slotsOf : (slotsOf place count bucket).Nodup :=
  List.nodup_reverse.mpr (List.nodup_range.filter _)

theorem length_slotsOf_le : (slotsOf place count bucket).length ≤ count := by
  rw [slotsOf, List.length_reverse]
  exact Nat.le_trans (List.length_filter_le _ _) (Nat.le_of_eq List.length_range)

theorem slotsOf_congr (hplace : ∀ i < count, placed i = place i) :
    slotsOf placed count bucket = slotsOf place count bucket := by
  unfold slotsOf
  congr 1
  refine List.filter_congr fun i hi => ?_
  rw [hplace i (List.mem_range.mp hi)]

theorem slotsOf_succ : slotsOf place (count + 1) bucket =
    if place count = some bucket then count :: slotsOf place count bucket
    else slotsOf place count bucket := by
  rw [slotsOf, List.range_succ, List.filter_append, List.reverse_append]
  by_cases heq : place count = some bucket <;> simp [heq, slotsOf]

/-- One slot loses its place. -/
theorem slotsOf_erase (hsplit : slotsOf place count bucket = before ++ index :: after)
    (hself : placed index = none) (hothers : ∀ i ≠ index, placed i = place i) :
    slotsOf placed count bucket = before ++ after := by
  have hnodup : (before ++ index :: after).Nodup := hsplit ▸ nodup_slotsOf
  have hfilter : slotsOf placed count bucket =
      (slotsOf place count bucket).filter (· ≠ index) := by
    rw [slotsOf, slotsOf, List.filter_reverse, List.filter_filter]
    congr 1
    refine List.filter_congr fun i _ => ?_
    by_cases heq : i = index
    · simp [heq, hself]
    · simp [heq, hothers i heq]
  have hbefore : ∀ i ∈ before, i ≠ index := fun i hi heq =>
    (List.disjoint_of_nodup_append hnodup) (heq ▸ hi) List.mem_cons_self
  have hafter : ∀ i ∈ after, i ≠ index := fun i hi heq =>
    (List.nodup_cons.mp (List.nodup_append.mp hnodup).2.1).1 (heq ▸ hi)
  rw [hfilter, hsplit, List.filter_append, List.filter_cons_of_neg (by simp),
    List.filter_eq_self.mpr fun i hi => by simpa using hbefore i hi,
    List.filter_eq_self.mpr fun i hi => by simpa using hafter i hi]

namespace Indexed

theorem empty (size : Nat) (next : Nat → Nat) (place : Nat → Option Nat) :
    Indexed (List.replicate size 0) next place 0 := by
  intro bucket _
  have hzero : (List.replicate size 0).getD bucket 0 = 0 := by
    simp [List.getD_eq_getElem?_getD, List.getElem?_replicate]
    split <;> rfl
  rw [hzero]
  exact .nil

theorem congr (hindexed : Indexed heads next place count)
    (hnext : ∀ i < count, later i = next i) (hplace : ∀ i < count, placed i = place i) :
    Indexed heads later placed count := by
  intro bucket hbucket
  rw [slotsOf_congr hplace]
  exact (hindexed bucket hbucket).congr fun i hi => hnext i (mem_slotsOf.mp hi).1

/-- A head leads to a slot of the table. -/
theorem head_le (hindexed : Indexed heads next place count) (bucket : Nat) :
    heads.getD bucket 0 ≤ count := by
  by_cases hbucket : bucket < heads.length
  · exact (hindexed bucket hbucket).link_le fun i hi => (mem_slotsOf.mp hi).1
  · rw [List.getD_eq_default _ _ (Nat.le_of_not_lt hbucket)]
    exact Nat.zero_le count

/-- A slot without a place stands in no chain. -/
theorem skip (hindexed : Indexed heads next place count) (hplace : place count = none) :
    Indexed heads next place (count + 1) := by
  intro bucket hbucket
  rw [slotsOf_succ, hplace, if_neg (by simp)]
  exact hindexed bucket hbucket

/-- A new slot is linked in front of its bucket. -/
theorem push (hindexed : Indexed heads next place count) (hplace : place count = some bucket)
    (hnext : next count = heads.getD bucket 0) :
    Indexed (heads.set bucket (count + 1)) next place (count + 1) := by
  intro other hother
  rw [List.length_set] at hother
  rw [slotsOf_succ, hplace]
  by_cases heq : bucket = other
  · subst other
    rw [if_pos rfl, List.getD_eq_getElem?_getD, List.getElem?_set_self hother, Option.getD_some]
    refine .cons ?_
    rw [hnext]
    exact hindexed bucket hother
  · rw [if_neg (by simpa using heq), List.getD_eq_getElem?_getD, List.getElem?_set_ne heq,
      ← List.getD_eq_getElem?_getD]
    exact hindexed other hother

/-- A slot is taken out of its chain: the head passes it over, or the slot before it. -/
theorem remove (hindexed : Indexed heads next place count) (hbucket : bucket < heads.length)
    (hsplit : slotsOf place count bucket = before ++ index :: after)
    (hself : placed index = none) (hothers : ∀ i ≠ index, placed i = place i) :
    match before.getLast? with
    | none => Indexed (heads.set bucket (next index)) next placed count
    | some prior => prior ≠ index ∧ prior < count ∧
        Indexed heads (Function.update next prior (next index)) placed count := by
  have herased := slotsOf_erase hsplit hself hothers
  have hindex : index ∈ slotsOf place count bucket := by simp [hsplit]
  have hchain := hindexed bucket hbucket
  have hnodup : (before ++ index :: after).Nodup := hsplit ▸ nodup_slotsOf
  rw [hsplit] at hchain
  have hapart : ∀ other ≠ bucket, slotsOf placed count other = slotsOf place count other := by
    intro other hne
    unfold slotsOf
    congr 1
    refine List.filter_congr fun i _ => ?_
    by_cases heq : i = index
    · rw [heq, hself, (mem_slotsOf.mp hindex).2]
      simp [Ne.symm hne]
    · rw [hothers i heq]
  cases hlast : before.getLast? with
  | none =>
      rw [List.getLast?_eq_none_iff] at hlast
      subst before
      intro other hother
      rw [List.length_set] at hother
      by_cases heq : bucket = other
      · subst other
        rw [List.getD_eq_getElem?_getD, List.getElem?_set_self hother, Option.getD_some, herased]
        exact hchain.unlink_head
      · rw [List.getD_eq_getElem?_getD, List.getElem?_set_ne heq, ← List.getD_eq_getElem?_getD,
          hapart other (Ne.symm heq)]
        exact hindexed other hother
  | some prior =>
      obtain ⟨front, hfront⟩ := List.getLast?_eq_some_iff.mp hlast
      subst before
      have hprior : prior ∈ slotsOf place count bucket := by simp [hsplit]
      refine ⟨fun heq => ?_, (mem_slotsOf.mp hprior).1, fun other hother => ?_⟩
      · exact (List.disjoint_of_nodup_append hnodup) (List.mem_append_right _
          (List.mem_singleton_self prior)) (heq ▸ List.mem_cons_self)
      · by_cases heq : other = bucket
        · subst other
          rw [herased, List.append_assoc]
          rw [List.append_assoc] at hchain hnodup
          exact hchain.unlink hnodup
        · rw [hapart other heq]
          refine (hindexed other hother).congr fun i hi =>
            Function.update_of_ne (fun hprior' => ?_) _ _
          have hother' := (mem_slotsOf.mp hi).2
          rw [hprior', (mem_slotsOf.mp hprior).2, Option.some.injEq] at hother'
          exact heq hother'.symm

end Indexed

end Foundation
