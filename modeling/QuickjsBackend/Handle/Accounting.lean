import Mathlib.Tactic.Abel
import QuickjsBackend.Foundation.Span
import QuickjsBackend.Handle.Stack

/-! # Which references the handle layer owns

Every slot below the allocation position belongs to the innermost stack entry
above whose position it lies. A slot holds a reference once a result was stored
in it, and again none after the destructor of its scope has released it;
reserved slots, which an API call has not filled yet, hold none.
-/

namespace QuickjsBackend

open Foundation

/-- References in the slots with index in `[lo, hi)`. -/
abbrev slotRefs (values : List JSValue) (lo hi : Nat) : Ptr → Int :=
  span JSValue.refs .undefined values lo hi

/-- References in the slots from the opening of the scope up to `hi`, those its
destructor has already released left out. -/
def HandleScope.slotRefs (handleScope : HandleScope) (values : List JSValue) (hi : Nat) :
    Ptr → Int :=
  match handleScope.phase with
  | .exiting i stop => span JSValue.refs .undefined values handleScope.prevPos i +
      span JSValue.refs .undefined values stop hi
  | _ => span JSValue.refs .undefined values handleScope.prevPos hi

/-- The reference parked in the scope, until its destructor releases it. -/
def HandleScope.parkedRefs (handleScope : HandleScope) : Ptr → Int :=
  match handleScope.phase with
  | .closing => 0
  | _ => handleScope.scopeValue.refs

/-- References in the slots below `hi`, walking down the stack. -/
def liveRefs (values : List JSValue) : List Frame → Nat → Ptr → Int
  | [], hi => span JSValue.refs .undefined values 0 hi
  | .slot index :: below, hi =>
      span JSValue.refs .undefined values (index + 1) hi + liveRefs values below index
  | .scope handleScope :: below, hi =>
      handleScope.slotRefs values hi + liveRefs values below handleScope.prevPos

def parkedRefs : List Frame → Ptr → Int
  | [] => 0
  | .slot _ :: below => parkedRefs below
  | .scope handleScope :: below => handleScope.parkedRefs + parkedRefs below

/-- The positions the scope records lie in order below `hi`. -/
def HandleScope.Bounded (handleScope : HandleScope) (hi : Nat) : Prop :=
  match handleScope.phase with
  | .exiting i stop => handleScope.prevPos ≤ i ∧ i ≤ stop ∧ stop ≤ hi
  | _ => handleScope.prevPos ≤ hi

/-- The positions recorded on the stack decrease downwards from `hi`. -/
def Bounded : List Frame → Nat → Prop
  | [], _ => True
  | .slot index :: below, hi => index < hi ∧ Bounded below index
  | .scope handleScope :: below, hi =>
      handleScope.Bounded hi ∧ Bounded below handleScope.prevPos

theorem HandleScope.Bounded.prevPos_le {handleScope : HandleScope} {hi : Nat}
    (hbounded : handleScope.Bounded hi) : handleScope.prevPos ≤ hi := by
  unfold HandleScope.Bounded at hbounded
  split at hbounded <;> omega

theorem HandleScope.Bounded.mono {handleScope : HandleScope} {lo hi : Nat}
    (hbounded : handleScope.Bounded lo) (hle : lo ≤ hi) : handleScope.Bounded hi := by
  unfold HandleScope.Bounded at hbounded ⊢
  split at hbounded <;> omega

theorem Bounded.mono {frames : List Frame} {lo hi : Nat} (hbounded : Bounded frames lo)
    (hle : lo ≤ hi) : Bounded frames hi := by
  cases frames with
  | nil => trivial
  | cons frame below =>
      cases frame with
      | slot index => exact ⟨Nat.lt_of_lt_of_le hbounded.1 hle, hbounded.2⟩
      | scope handleScope => exact ⟨hbounded.1.mono hle, hbounded.2⟩

/-- What lies under the top entry is bounded by the position it records. -/
theorem Bounded.below {frame : Frame} {below : List Frame} {hi : Nat}
    (hbounded : Bounded (frame :: below) hi) : Bounded below hi := by
  cases frame with
  | slot index => exact hbounded.2.mono (Nat.le_of_lt hbounded.1)
  | scope handleScope => exact hbounded.2.mono hbounded.1.prevPos_le

theorem HandleScope.parkedRefs_nonneg (handleScope : HandleScope) : 0 ≤ handleScope.parkedRefs := by
  unfold HandleScope.parkedRefs
  split
  · exact le_refl 0
  · exact handleScope.scopeValue.refs_nonneg

theorem parkedRefs_nonneg (frames : List Frame) : 0 ≤ QuickjsBackend.parkedRefs frames := by
  induction frames with
  | nil => exact le_refl 0
  | cons frame below ih =>
      cases frame with
      | slot index => exact ih
      | scope handleScope => exact add_nonneg handleScope.parkedRefs_nonneg ih

variable {values : List JSValue} {frames : List Frame}

theorem HandleScope.slotRefs_add_span {handleScope : HandleScope} {lo hi : Nat}
    (hbounded : handleScope.Bounded lo) (hle : lo ≤ hi) :
    handleScope.slotRefs values hi =
      handleScope.slotRefs values lo + QuickjsBackend.slotRefs values lo hi := by
  unfold HandleScope.Bounded at hbounded
  unfold HandleScope.slotRefs
  split at hbounded
  · rw [← span_add_span hbounded.2.2 hle, add_assoc]
  · rw [← span_add_span hbounded hle]

/-- Slots between two tops of the stack belong to its innermost entry. -/
theorem liveRefs_add_slotRefs {lo hi : Nat} (hbounded : Bounded frames lo) (hle : lo ≤ hi) :
    liveRefs values frames hi = liveRefs values frames lo + slotRefs values lo hi := by
  cases frames with
  | nil => exact (span_add_span (Nat.zero_le lo) hle).symm
  | cons frame below =>
      cases frame with
      | slot index =>
          simp only [liveRefs]
          rw [← span_add_span (show index + 1 ≤ lo from hbounded.1) hle]
          abel
      | scope handleScope =>
          simp only [liveRefs]
          rw [HandleScope.slotRefs_add_span hbounded.1 hle]
          abel

/-- A write above the top of the stack is not seen. -/
theorem liveRefs_set {hi index : Nat} (value : JSValue) (hbounded : Bounded frames hi)
    (hindex : hi ≤ index) :
    liveRefs (values.set index value) frames hi = liveRefs values frames hi := by
  induction frames generalizing hi with
  | nil => exact span_set_of_outside (Or.inr hindex)
  | cons frame below ih =>
      cases frame with
      | slot position =>
          have hposition : position < hi := hbounded.1
          simp only [liveRefs]
          rw [ih hbounded.2 (by omega), span_set_of_outside (Or.inr hindex)]
      | scope handleScope =>
          have hscope := hbounded.1
          have hprev := hscope.prevPos_le
          simp only [liveRefs]
          rw [ih hbounded.2 (by omega)]
          unfold HandleScope.Bounded at hscope
          unfold HandleScope.slotRefs
          split at hscope
          · rw [span_set_of_outside (Or.inr (by omega)), span_set_of_outside (Or.inr hindex)]
          · rw [span_set_of_outside (Or.inr hindex)]

theorem liveRefs_append_blank (hi : Nat) :
    liveRefs (values ++ [.undefined]) frames hi = liveRefs values frames hi := by
  induction frames generalizing hi with
  | nil => exact span_append_blank
  | cons frame below ih =>
      cases frame with
      | slot position => simp only [liveRefs, ih, span_append_blank]
      | scope handleScope =>
          simp only [liveRefs, ih, HandleScope.slotRefs, span_append_blank]

section Parking

variable {target : Nat} {value : JSValue}

@[simp] theorem bounded_setScopeValue {hi : Nat} :
    Bounded (setScopeValue target value frames) hi ↔ Bounded frames hi := by
  induction frames generalizing hi with
  | nil => rfl
  | cons frame below ih =>
      simp only [setScopeValue]
      split
      · cases frame <;> rfl
      · cases frame <;> simp only [Bounded, ih]

@[simp] theorem liveRefs_setScopeValue {hi : Nat} :
    liveRefs values (setScopeValue target value frames) hi = liveRefs values frames hi := by
  induction frames generalizing hi with
  | nil => rfl
  | cons frame below ih =>
      simp only [setScopeValue]
      split
      · cases frame <;> rfl
      · cases frame <;> simp only [liveRefs, ih]

/-- What parking a value in the scope at the address takes out of account: the
value parked there before, or the new one where the scope is past its release. -/
def displacedRefs (target : Nat) (value : JSValue) (frames : List Frame) : Ptr → Int :=
  match scopeAt target frames with
  | some handleScope =>
      if handleScope.phase = .closing then value.refs else handleScope.scopeValue.refs
  | none => value.refs

theorem parkedRefs_setScopeValue (target : Nat) (value : JSValue) (frames : List Frame) :
    parkedRefs (setScopeValue target value frames) + displacedRefs target value frames =
      parkedRefs frames + value.refs := by
  induction frames with
  | nil => rfl
  | cons frame below ih =>
      by_cases htarget : below.length = target
      · cases frame with
        | slot index => simp [setScopeValue, displacedRefs, scopeAt, htarget, parkedRefs]
        | scope handleScope =>
            cases hphase : handleScope.phase <;>
              simp [setScopeValue, displacedRefs, scopeAt, htarget, parkedRefs,
                HandleScope.parkedRefs, hphase] <;> abel
      · have hdisplaced : displacedRefs target value (frame :: below) =
            displacedRefs target value below := by
          simp [displacedRefs, scopeAt, htarget]
        simp only [setScopeValue, htarget, if_false, hdisplaced]
        cases frame with
        | slot index => exact ih
        | scope handleScope =>
            simp only [parkedRefs]
            rw [add_assoc, ih, add_assoc]

theorem liveRefs_nonneg (hi : Nat) : 0 ≤ liveRefs values frames hi := by
  induction frames generalizing hi with
  | nil => exact span_nonneg JSValue.refs_nonneg
  | cons frame below ih =>
      cases frame with
      | slot index => exact add_nonneg (span_nonneg JSValue.refs_nonneg) (ih index)
      | scope handleScope =>
          refine add_nonneg ?_ (ih handleScope.prevPos)
          unfold HandleScope.slotRefs
          split
          · exact add_nonneg (span_nonneg JSValue.refs_nonneg) (span_nonneg JSValue.refs_nonneg)
          · exact span_nonneg JSValue.refs_nonneg

/-- What is parked in a scope is owned until its destructor releases it. -/
theorem refs_le_parkedRefs {address : Nat} {was : HandleScope}
    (hscope : scopeAt address frames = some was)
    (hphase : was.phase ≠ .closing) : was.scopeValue.refs ≤ parkedRefs frames := by
  induction frames with
  | nil => simp [scopeAt] at hscope
  | cons frame below ih =>
      rcases scopeAt_cons_cases hscope with ⟨_, rfl⟩ | hbelow
      · have hparked : was.parkedRefs = was.scopeValue.refs := by
          cases hwas : was.phase with
          | closing => exact absurd hwas hphase
          | _ => simp only [HandleScope.parkedRefs, hwas]
        simp only [parkedRefs, hparked]
        exact le_add_of_nonneg_right (parkedRefs_nonneg below)
      · cases frame with
        | slot index => exact ih hbelow
        | scope handleScope =>
            exact (ih hbelow).trans (le_add_of_nonneg_left handleScope.parkedRefs_nonneg)

end Parking

end QuickjsBackend
