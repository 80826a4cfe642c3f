import Mathlib.Data.Fintype.Card
import Mathlib.Logic.Relation

/-! # Following links

Each element may have a link to the next. Among finitely many elements with a
link, what can be reached at all is reached within as many steps as there are
elements.
-/

namespace Foundation

open Relation

universe u

variable {α : Type u} (next : α → Option α)

/-- The elements reached in at most so many steps, nearest first. -/
def walk : Nat → α → List α
  | 0, _ => []
  | steps + 1, start =>
      match next start with
      | none => []
      | some follow => follow :: walk steps follow

/-- The element reached in exactly so many steps. -/
def iterate : Nat → α → Option α
  | 0, start => some start
  | steps + 1, start => (next start).bind (iterate steps)

variable {next} {start target : α} {steps : Nat}

theorem mem_walk_iff_iterate : target ∈ walk next steps start ↔
    ∃ count < steps, iterate next (count + 1) start = some target := by
  induction steps generalizing start with
  | zero => simp [walk]
  | succ steps ih =>
      unfold walk
      cases hnext : next start with
      | none => simp [iterate, hnext]
      | some follow =>
          have hfirst : ∀ count, iterate next (count + 1) start = iterate next count follow := by
            intro count
            rw [iterate, hnext, Option.bind_some]
          simp only [List.mem_cons, ih, hfirst]
          constructor
          · rintro (rfl | ⟨count, hlt, hcount⟩)
            · exact ⟨0, Nat.succ_pos steps, rfl⟩
            · exact ⟨count + 1, Nat.succ_lt_succ hlt, hcount⟩
          · rintro ⟨count, hlt, hcount⟩
            cases count with
            | zero => exact .inl (Option.some.inj hcount).symm
            | succ count => exact .inr ⟨count, Nat.lt_of_succ_lt_succ hlt, hcount⟩

theorem transGen_iff_iterate : TransGen (fun first second =>
    next first = some second) start target ↔
    ∃ count, iterate next (count + 1) start = some target := by
  constructor
  · intro hreach
    induction hreach using TransGen.head_induction_on with
    | single hlink => exact ⟨0, by rw [iterate, hlink, Option.bind_some, iterate]⟩
    | head hlink _ ih =>
        obtain ⟨count, hcount⟩ := ih
        exact ⟨count + 1, by rw [iterate, hlink, Option.bind_some, hcount]⟩
  · rintro ⟨count, hcount⟩
    induction count generalizing start with
    | zero =>
        rw [iterate, Option.bind_eq_some_iff] at hcount
        obtain ⟨follow, hlink, hrest⟩ := hcount
        cases Option.some.inj hrest
        exact .single hlink
    | succ count ih =>
        rw [iterate, Option.bind_eq_some_iff] at hcount
        obtain ⟨follow, hlink, hrest⟩ := hcount
        exact .head hlink (ih hrest)

theorem iterate_add (first second : Nat) (start : α) :
    iterate next (first + second) start = (iterate next first start).bind
      (iterate next second) := by
  induction first generalizing start with
  | zero => rw [Nat.zero_add, iterate, Option.bind_some]
  | succ first ih =>
      rw [Nat.succ_add, iterate, iterate]
      cases next start with
      | none => rfl
      | some follow => exact ih follow

theorem exists_link_of_iterate {count : Nat} (hcount : iterate next count start = some target)
    {index : Nat} (hindex : index < count) :
    ∃ element follow, iterate next index start = some element ∧ next element = some follow := by
  have hsplit : iterate next (index + (count - index)) start =
      (iterate next index start).bind (iterate next (count - index)) := iterate_add _ _ _
  rw [Nat.add_sub_cancel' (Nat.le_of_lt hindex), hcount] at hsplit
  obtain ⟨element, helement, hrest⟩ := Option.bind_eq_some_iff.mp hsplit.symm
  obtain ⟨rest, hrestCount⟩ : ∃ rest, count - index = rest + 1 := ⟨count - index - 1, by omega⟩
  rw [hrestCount, iterate, Option.bind_eq_some_iff] at hrest
  obtain ⟨follow, hfollow, _⟩ := hrest
  exact ⟨element, follow, helement, hfollow⟩

/-- A shortest way does not come to an element twice. -/
theorem iterate_ne_of_shortest {count : Nat} (hcount : iterate next count start = some target)
    (hshortest : ∀ fewer, 0 < fewer → fewer < count → iterate next fewer start ≠ some target)
    {first second : Nat} (hfirst : first < second) (hsecond : second < count) :
    iterate next first start ≠ iterate next second start := by
  intro heq
  apply hshortest (first + (count - second)) (by omega) (by omega)
  rw [iterate_add, heq, ← iterate_add, Nat.add_sub_cancel' (Nat.le_of_lt hsecond)]
  exact hcount

/-- A shortest way is no longer than there are elements with a link. -/
theorem shortest_le {next : Nat → Option Nat} {bound start target count : Nat}
    (hbound : ∀ element follow, next element = some follow → element < bound)
    (hcount : iterate next count start = some target)
    (hshortest : ∀ fewer, 0 < fewer → fewer < count → iterate next fewer start ≠ some target) :
    count ≤ bound := by
  have hlinked := fun index : Fin count => exists_link_of_iterate hcount index.isLt
  choose element follow helement hfollow using hlinked
  have hinjective : Function.Injective fun index : Fin count =>
      (⟨element index, hbound _ _ (hfollow index)⟩ : Fin bound) := by
    intro first second heq
    have hsame : element first = element second := congrArg Fin.val heq
    have hvalues : iterate next first.1 start = iterate next second.1 start := by
      rw [helement, helement, hsame]
    rcases Nat.lt_trichotomy first.1 second.1 with hlt | hval | hlt
    · exact absurd hvalues (iterate_ne_of_shortest hcount hshortest hlt second.isLt)
    · exact Fin.ext hval
    · exact absurd hvalues.symm (iterate_ne_of_shortest hcount hshortest hlt first.isLt)
  have hcard := Fintype.card_le_of_injective _ hinjective
  rwa [Fintype.card_fin, Fintype.card_fin] at hcard

/-- With as many steps as there are elements, a walk comes to all that can be
reached. -/
theorem mem_walk_iff {next : Nat → Option Nat} {bound start target : Nat}
    (hbound : ∀ element follow, next element = some follow → element < bound) :
    target ∈ walk next bound start ↔
      TransGen (fun first second => next first = some second) start target := by
  rw [mem_walk_iff_iterate, transGen_iff_iterate]
  constructor
  · rintro ⟨count, _, hcount⟩
    exact ⟨count, hcount⟩
  · intro hreach
    classical
    have hcount := Nat.find_spec hreach
    refine ⟨Nat.find hreach, ?_, hcount⟩
    apply shortest_le hbound hcount
    intro fewer hpos hlt hreached
    obtain ⟨before, rfl⟩ : ∃ before, fewer = before + 1 := ⟨fewer - 1, by omega⟩
    exact Nat.find_min hreach (by omega) hreached

end Foundation
