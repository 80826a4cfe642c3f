import QuickjsBackend.Handle.Transition

/-! # Which step frees a cell

A live cell stays live unless the step releases the last reference to it or finds
it to be garbage.
-/

namespace QuickjsBackend

namespace Isolate

variable (isolate : Isolate)

/-- The value whose reference the action releases. -/
def released : Action → Option JSValue
  | .handle .beginExit =>
      match isolate.frames with
      | .scope handleScope :: _ =>
          if handleScope.prevPos < isolate.valueAllocPos then none else some handleScope.scopeValue
      | _ => none
  | .handle .releaseSlot =>
      match isolate.frames with
      | .scope handleScope :: _ =>
          match handleScope.phase with
          | .exiting i _ => some (isolate.values.getD (i - 1) .undefined)
          | _ => none
      | _ => none
  | .handle .finishExit =>
      match isolate.frames with
      | .scope handleScope :: _ => some handleScope.scopeValue
      | _ => none
  | .engine (.free value) => some value
  | _ => none

/-- The action drops the last reference to the cell, or finds it to be garbage. -/
def Frees (action : Action) (ptr : Ptr) : Prop :=
  (∃ value, isolate.released action = some value ∧ isolate.runtime.LastReference value ptr) ∨
    action = .engine (.condemn ptr)

variable {isolate} {next : Isolate} {action : Action} {ptr : Ptr} {fault : Fault}

theorem frees_of_released {value : JSValue} (hreleased : isolate.released action = some value)
    (hcondemn : action ≠ .engine (.condemn ptr)) :
    isolate.Frees action ptr ↔ isolate.runtime.LastReference value ptr := by
  constructor
  · rintro (⟨other, hother, hlast⟩ | heq)
    · rw [hreleased, Option.some.injEq] at hother
      subst other
      exact hlast
    · exact absurd heq hcondemn
  · intro hlast
    exact Or.inl ⟨value, hreleased, hlast⟩

theorem not_frees_of_released_none (hreleased : isolate.released action = none)
    (hcondemn : action ≠ .engine (.condemn ptr)) : ¬ isolate.Frees action ptr := by
  rintro (⟨value, hvalue, _⟩ | heq)
  · rw [hreleased] at hvalue
    cases hvalue
  · exact hcondemn heq

theorem live_engine_iff {op : EngineOp} {rt : Runtime} {others : Ptr → Int}
    (hengine : EngineTransition isolate op rt others) (hlive : isolate.runtime.cell ptr = .live) :
    rt.cell ptr = .live ↔ ¬ isolate.Frees (.engine op) ptr := by
  cases hengine with
  | produce value =>
      exact iff_of_true (Runtime.produce_cell_of_live value hlive)
        (not_frees_of_released_none rfl (by simp))
  | free kind target =>
      rw [frees_of_released (show isolate.released _ = some _ from rfl) (by simp)]
      exact Runtime.freeValueRT_live_iff _ hlive
  | idle value hvalue =>
      refine iff_of_true hlive ?_
      have hreleased : isolate.released (.engine (.free value)) = some value := rfl
      rw [frees_of_released hreleased (by simp)]
      rintro ⟨kind, rfl, _⟩
      simp [JSValue.hasRefCount_ref] at hvalue
  | condemn target =>
      by_cases heq : target = ptr
      · subst target
        have hcell := Runtime.condemn_cell_self hlive
        simp only [Runtime.condemnGarbage, hcell, reduceCtorEq, Frees, or_true, not_true_eq_false]
      · refine iff_of_true ?_ (not_frees_of_released_none rfl (by simpa using heq))
        simp only [Runtime.condemnGarbage, Runtime.condemn_cell_of_ne (Ne.symm heq), hlive]
  | collect target hcell =>
      refine iff_of_true ?_ (not_frees_of_released_none rfl (by simp))
      have hne : ptr ≠ target := by
        rintro rfl
        rw [hlive] at hcell
        cases hcell
      rw [Runtime.freeObject_cell, Function.update_of_ne hne, hlive]
  | endFree => exact iff_of_true hlive (not_frees_of_released_none rfl (by simp))

theorem live_next_iff (hnext : Transition isolate action next)
    (hlive : isolate.runtime.cell ptr = .live) :
    next.runtime.cell ptr = .live ↔ ¬ isolate.Frees action ptr := by
  have hkept : ∀ op, next.runtime.cell ptr = .live → isolate.released (.handle op) = none →
      (next.runtime.cell ptr = .live ↔ ¬ isolate.Frees (.handle op) ptr) := by
    intro op hnow hreleased
    exact iff_of_true hnow (not_frees_of_released_none hreleased (by simp))
  have hfreed : ∀ op value, next.runtime = isolate.runtime.freeValueRT value →
      isolate.released (.handle op) = some value →
        (next.runtime.cell ptr = .live ↔ ¬ isolate.Frees (.handle op) ptr) := by
    intro op value hrt hreleased
    rw [frees_of_released hreleased (by simp), hrt]
    exact Runtime.freeValueRT_live_iff value hlive
  cases hnext with
  | openScope escapable => exact hkept _ hlive rfl
  | alloc => exact hkept _ hlive rfl
  | store index below value => exact hkept _ (Runtime.produce_cell_of_live value hlive) rfl
  | escape address handle handleScope parent value => exact hkept _ hlive rfl
  | enterLoop handleScope below hframes hphase hlt =>
      exact hkept _ hlive (by simp [released, hframes, hlt])
  | skipLoop handleScope below hframes hphase hle =>
      exact hfreed _ handleScope.scopeValue rfl
        (by simp [released, hframes, Nat.not_lt.mpr hle])
  | releaseSlot handleScope index stop below hframes hphase =>
      exact hfreed _ _ rfl (by simp [released, hframes, hphase])
  | finishExit handleScope i stop below hframes =>
      exact hfreed _ handleScope.scopeValue rfl (by simp [released, hframes])
  | closeScope handleScope below => exact hkept _ hlive rfl
  | engine op rt others hengine => exact live_engine_iff hengine hlive

/-- A step that would free a cell is refused only where the caller or the engine
broke the rules. -/
theorem misuse_of_frees (hfrees : isolate.Frees action ptr)
    (hstep : isolate.step action = .error fault) : fault = .misuse := by
  cases action with
  | handle op =>
      cases op with
      | beginExit =>
          simp only [Isolate.step, handleStep] at hstep
          repeat' split at hstep
          all_goals first | exact (Except.error.inj hstep).symm | cases hstep
      | releaseSlot =>
          simp only [Isolate.step, handleStep] at hstep
          repeat' split at hstep
          all_goals first | exact (Except.error.inj hstep).symm | cases hstep
      | finishExit =>
          simp only [Isolate.step, handleStep] at hstep
          repeat' split at hstep
          all_goals first | exact (Except.error.inj hstep).symm | cases hstep
      | _ => exact absurd hfrees (not_frees_of_released_none rfl (by simp))
  | engine op =>
      simp only [Isolate.step, engineStep] at hstep
      repeat' split at hstep
      all_goals first | exact (Except.error.inj hstep).symm | cases hstep

end Isolate

end QuickjsBackend
