import QuickjsBackend.Handle.Isolate

/-! # What one step of the handle layer can do

The step function read backwards: an accepted step is one of the transitions
below, with everything the step has checked. Invariants are proved by cases on
the transition and never unfold the step.
-/

namespace QuickjsBackend

namespace Isolate

/-- What a step of the engine makes of the runtime and of the references that are
none of this layer. -/
inductive EngineTransition (isolate : Isolate) : EngineOp → Runtime → (Ptr → Int) → Prop
  | produce (value : JSValue) (hvalue : isolate.runtime.Available value) :
      EngineTransition isolate (.produce value) (isolate.runtime.produce value)
        (isolate.others + value.refs)
  | free (kind : RefTag) (ptr : Ptr) (hothers : 0 < isolate.others ptr) :
      EngineTransition isolate (.free (.ref kind ptr)) (isolate.runtime.freeValueRT (.ref kind ptr))
        (isolate.others - (JSValue.ref kind ptr).refs)
  | idle (value : JSValue) (hvalue : value.hasRefCount = false) :
      EngineTransition isolate (.free value) isolate.runtime isolate.others
  | condemn (ptr : Ptr) (hheld : isolate.held ptr = 0) :
      EngineTransition isolate (.condemn ptr) (isolate.runtime.condemnGarbage ptr) isolate.others
  | collect (ptr : Ptr) (hcell : isolate.runtime.cell ptr = .condemned) :
      EngineTransition isolate (.collect ptr) (isolate.runtime.freeObject ptr) isolate.others
  | endFree :
      EngineTransition isolate .endFree { isolate.runtime with gcPhase := .none } isolate.others

inductive Transition : Isolate → Action → Isolate → Prop
  | openScope (isolate : Isolate) (escapable : Bool) :
      Transition isolate (.handle (.openScope escapable)) (isolate.openScope escapable)
  | alloc (isolate : Isolate) : Transition isolate (.handle .alloc) isolate.alloc
  | store (isolate : Isolate) (index : Nat) (below : List Frame) (value : JSValue)
      (hframes : isolate.frames = .slot index :: below)
      (hvalue : isolate.runtime.Available value) :
      Transition isolate (.handle (.store value)) (isolate.store index below value)
  | escape (isolate : Isolate) (address : Nat) (handle : Local) (handleScope : HandleScope)
      (parent : Nat) (value : JSValue) (hscope : scopeAt address isolate.frames = some handleScope)
      (hparent : handleScope.prevScope = some parent) (hderef : isolate.deref handle = some value)
      (hlive : isolate.runtime.Live value) :
      Transition isolate (.handle (.escape address handle)) (isolate.escapeValue parent value)
  | enterLoop (isolate : Isolate) (handleScope : HandleScope) (below : List Frame)
      (hframes : isolate.frames = .scope handleScope :: below)
      (hphase : handleScope.phase = .opened) (hlt : handleScope.prevPos < isolate.valueAllocPos) :
      Transition isolate (.handle .beginExit)
        { isolate with
          frames := .scope { handleScope with
            phase := .exiting isolate.valueAllocPos isolate.valueAllocPos } :: below }
  | skipLoop (isolate : Isolate) (handleScope : HandleScope) (below : List Frame)
      (hframes : isolate.frames = .scope handleScope :: below)
      (hphase : handleScope.phase = .opened) (hle : isolate.valueAllocPos ≤ handleScope.prevPos) :
      Transition isolate (.handle .beginExit) (isolate.releaseScopeValue handleScope below)
  | releaseSlot (isolate : Isolate) (handleScope : HandleScope) (index stop : Nat)
      (below : List Frame) (hframes : isolate.frames = .scope handleScope :: below)
      (hphase : handleScope.phase = .exiting (index + 1) stop)
      (hle : handleScope.prevPos ≤ index) :
      Transition isolate (.handle .releaseSlot) (isolate.releaseSlot handleScope index stop below)
  | finishExit (isolate : Isolate) (handleScope : HandleScope) (i stop : Nat)
      (below : List Frame) (hframes : isolate.frames = .scope handleScope :: below)
      (hphase : handleScope.phase = .exiting i stop) (hle : i ≤ handleScope.prevPos) :
      Transition isolate (.handle .finishExit) (isolate.finishExit handleScope below)
  | closeScope (isolate : Isolate) (handleScope : HandleScope) (below : List Frame)
      (hframes : isolate.frames = .scope handleScope :: below)
      (hphase : handleScope.phase = .closing) :
      Transition isolate (.handle .closeScope) (isolate.closeScope handleScope below)
  | engine (isolate : Isolate) (op : EngineOp) (rt : Runtime) (others : Ptr → Int)
      (hengine : EngineTransition isolate op rt others) :
      Transition isolate (.engine op) { isolate with runtime := rt, others := others }

variable {isolate next : Isolate}

theorem transition_of_escape {address : Nat} {handle : Local}
    (hstep : isolate.escape address handle = .ok next) :
    Transition isolate (.handle (.escape address handle)) next := by
  simp only [Isolate.escape] at hstep
  cases hscope : scopeAt address isolate.frames with
  | none => simp only [hscope, reduceCtorEq] at hstep
  | some handleScope =>
      simp only [hscope] at hstep
      split at hstep
      next hopen =>
        cases hparent : handleScope.prevScope with
        | none => simp only [hparent, reduceCtorEq] at hstep
        | some parent =>
            cases hderef : isolate.deref handle with
            | none => simp only [hparent, hderef, reduceCtorEq] at hstep
            | some value =>
                simp only [hparent, hderef] at hstep
                split at hstep
                next hlive =>
                  cases hstep
                  exact .escape isolate address handle handleScope parent value hscope hparent
                    hderef hlive
                next => simp only [reduceCtorEq] at hstep
      next => simp only [reduceCtorEq] at hstep

theorem transition_of_store {value : JSValue}
    (hstep : isolate.handleStep (.store value) = .ok next) :
    Transition isolate (.handle (.store value)) next := by
  simp only [handleStep] at hstep
  split at hstep
  next index below hframes =>
    have hnext : isolate.runtime.Available value ∧ next = isolate.store index below value := by
      split at hstep
      next kind ptr =>
        split at hstep
        next hcell =>
          refine ⟨?_, (Except.ok.inj hstep).symm⟩
          rintro _ _ ⟨⟩
          exact hcell
        next => simp only [reduceCtorEq] at hstep
      next value hother =>
        exact ⟨fun kind ptr hvalue => absurd hvalue (hother kind ptr), (Except.ok.inj hstep).symm⟩
    obtain ⟨hvalue, rfl⟩ := hnext
    exact .store isolate index below value hframes hvalue
  next => simp only [reduceCtorEq] at hstep

/-- The operations of a destructor, which look at the entry on top of the stack. -/
theorem transition_of_exit {op : HandleOp} (hstep : isolate.handleStep op = .ok next)
    (hop : op = .beginExit ∨ op = .releaseSlot ∨ op = .finishExit ∨ op = .closeScope) :
    Transition isolate (.handle op) next := by
  cases hframes : isolate.frames with
  | nil => rcases hop with rfl | rfl | rfl | rfl <;> simp [handleStep, hframes] at hstep
  | cons frame below =>
      cases frame with
      | slot index => rcases hop with rfl | rfl | rfl | rfl <;> simp [handleStep, hframes] at hstep
      | scope handleScope =>
          cases hphase : handleScope.phase with
          | opened =>
              rcases hop with rfl | rfl | rfl | rfl <;>
                simp only [handleStep, hframes, hphase, reduceCtorEq, if_true, if_false] at hstep
              cases hstep
              unfold beginExit
              split
              next hlt => exact .enterLoop isolate handleScope below hframes hphase hlt
              next hge => exact .skipLoop isolate handleScope below hframes hphase (by omega)
          | exiting i stop =>
              rcases hop with rfl | rfl | rfl | rfl <;>
                simp only [handleStep, hframes, hphase, reduceCtorEq, if_false] at hstep
              · split at hstep
                next hlt =>
                  obtain ⟨index, rfl⟩ : ∃ index, i = index + 1 := ⟨i - 1, by omega⟩
                  cases hstep
                  exact .releaseSlot isolate handleScope index stop below hframes hphase (by omega)
                next => simp only [reduceCtorEq] at hstep
              · split at hstep
                next => simp only [reduceCtorEq] at hstep
                next hge =>
                  cases hstep
                  exact .finishExit isolate handleScope i stop below hframes hphase (by omega)
          | closing =>
              rcases hop with rfl | rfl | rfl | rfl <;>
                simp only [handleStep, hframes, hphase, reduceCtorEq, if_true, if_false] at hstep
              cases hstep
              exact .closeScope isolate handleScope below hframes hphase

theorem transition_of_produce {value : JSValue}
    (hstep : isolate.engineStep (.produce value) = .ok next) :
    Transition isolate (.engine (.produce value)) next := by
  have hnext : isolate.runtime.Available value ∧ next = { isolate with
      runtime := isolate.runtime.produce value
      others := isolate.others + value.refs } := by
    cases value with
    | ref kind ptr =>
        simp only [engineStep] at hstep
        split at hstep
        next hcell =>
          refine ⟨?_, (Except.ok.inj hstep).symm⟩
          rintro _ _ ⟨⟩
          exact hcell
        next => simp only [reduceCtorEq] at hstep
    | _ =>
        refine ⟨(by rintro _ _ ⟨⟩), ?_⟩
        rw [JSValue.refs_eq_zero_iff.mpr rfl, add_zero]
        exact (Except.ok.inj hstep).symm
  obtain ⟨hvalue, rfl⟩ := hnext
  exact .engine isolate _ _ _ (.produce value hvalue)

theorem transition_of_engineStep {op : EngineOp} (hstep : isolate.engineStep op = .ok next) :
    Transition isolate (.engine op) next := by
  cases op with
  | produce value => exact transition_of_produce hstep
  | free value =>
      cases value with
      | ref kind ptr =>
          simp only [engineStep] at hstep
          split at hstep
          next hfree =>
            cases hstep
            exact .engine isolate _ _ _ (.free kind ptr hfree.2)
          next => simp only [reduceCtorEq] at hstep
      | _ =>
          cases hstep
          exact .engine isolate _ _ _ (.idle _ rfl)
  | condemn ptr =>
      simp only [engineStep] at hstep
      split at hstep
      next hgarbage =>
        cases hstep
        exact .engine isolate _ _ _ (.condemn ptr hgarbage.2)
      next => simp only [reduceCtorEq] at hstep
  | collect ptr =>
      simp only [engineStep] at hstep
      split at hstep
      next hcell =>
        cases hstep
        exact .engine isolate _ _ _ (.collect ptr hcell)
      next => simp only [reduceCtorEq] at hstep
  | endFree =>
      cases hstep
      exact .engine isolate _ _ _ .endFree

/-- Inversion of an accepted step. -/
theorem transition_of_step {action : Action} (hstep : isolate.step action = .ok next) :
    Transition isolate action next := by
  cases action with
  | engine op => exact transition_of_engineStep hstep
  | handle op =>
      cases op with
      | openScope escapable =>
          cases hstep
          exact .openScope isolate escapable
      | alloc =>
          cases hstep
          exact .alloc isolate
      | store value => exact transition_of_store hstep
      | escape address handle => exact transition_of_escape hstep
      | beginExit => exact transition_of_exit hstep (by simp)
      | releaseSlot => exact transition_of_exit hstep (by simp)
      | finishExit => exact transition_of_exit hstep (by simp)
      | closeScope => exact transition_of_exit hstep (by simp)

/-- A step is refused because the rules were broken, or in a `V8::Check`. -/
theorem fault_of_step {action : Action} {fault : Fault}
    (hstep : isolate.step action = .error fault) :
    fault = .misuse ∨ fault = .abort := by
  cases action with
  | handle op =>
      cases op with
      | escape address handle =>
          simp only [Isolate.step, handleStep, Isolate.escape] at hstep
          repeat' split at hstep
          all_goals cases hstep <;> simp
      | _ =>
          simp only [Isolate.step, handleStep] at hstep
          repeat' split at hstep
          all_goals cases hstep <;> simp
  | engine op =>
      simp only [Isolate.step, engineStep] at hstep
      repeat' split at hstep
      all_goals cases hstep <;> simp

end Isolate

end QuickjsBackend
