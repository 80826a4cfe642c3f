import Mathlib.Tactic.Abel
import Mathlib.Tactic.LinearCombination
import QuickjsBackend.Callback.Wrapper

/-! # Conservation of references across a native callback

Storing to `value_` or `exception_` overwrites a raw value, and with it the
reference that was taken for it. An invocation conserves references exactly
when no reference is left behind this way; a construct call that hands over
`this_` as it came, without a reference, has to have left exactly that one.
-/

namespace QuickjsBackend

namespace Wrapper

variable (wrapper : Wrapper)

/-- Whether the callback has thrown when it returns. -/
def throws (info : CallbackInfo) : Bool := !info.isolate.exception.isUndefined

/-- Values whose reference nobody hands over or releases: those overwritten, and
what is in `value_` when the call throws or returns `this_`. -/
def leftBehind (info : CallbackInfo) : List JSValue :=
  if throws info || wrapper.returnsThis then info.value :: info.overwritten
  else info.overwritten

/-- What the engine receives without a reference taken for it: the new target of
a construct call without internal fields. -/
def borrowed (thisVal : JSValue) (info : CallbackInfo) : JSValue :=
  if !throws info && wrapper.returnsThis && !wrapper.createsInstance then thisVal else .undefined

end Wrapper

/-- Apart from what handle operations and the engine did themselves, the counts
of all cells changed by one reference to the value handed to the engine. A
reference that `exception_` held on entry goes with it. -/
def HandsOneReference (before : Isolate) (completion : Completion) (final : CallbackInfo) : Prop :=
  final.isolate.runtime.refCount + before.exception.refs =
    before.runtime.refCount + final.drift + completion.handed.refs

/-- The balance of a callback body: the references in the callback info and in
`exception_`, and those lost by overwriting, are the ones taken. -/
def CallbackInfo.Balanced (start : Ptr → Int) (info : CallbackInfo) : Prop :=
  info.isolate.runtime.refCount =
    start + info.drift + (info.value.refs + info.isolate.exception.refs +
      totalRefs info.overwritten)

namespace CallbackInfo

variable {start : Ptr → Int} {info next : CallbackInfo}

/-- `Isolate::Escape` takes one reference to the value and changes nothing else. -/
theorem escapeHandle_spec {isolate after : Isolate} {handle : Local} {value : JSValue}
    (hescape : isolate.escapeHandle handle = .ok (value, after)) :
    after.runtime.refCount = isolate.runtime.refCount + value.refs ∧
      after.exception = isolate.exception := by
  unfold Isolate.escapeHandle at hescape
  split at hescape
  · simp only [reduceCtorEq] at hescape
  · split at hescape
    · simp only [reduceCtorEq] at hescape
    · split at hescape
      · cases hescape
        exact ⟨rfl, rfl⟩
      · simp only [reduceCtorEq] at hescape

theorem Balanced.setValue (hbalanced : info.Balanced start) (value : JSValue)
    {isolate : Isolate}
    (hcount : isolate.runtime.refCount = info.isolate.runtime.refCount + value.refs)
    (hexception : isolate.exception = info.isolate.exception) :
    ({ info with isolate }.setValue value).Balanced start := by
  unfold Balanced at hbalanced ⊢
  simp only [CallbackInfo.setValue, hexception, hcount, totalRefs_cons]
  rw [hbalanced]
  abel

theorem Balanced.within (hbalanced : info.Balanced start) {action : Action}
    (hstep : info.within action = .ok next) : next.Balanced start := by
  unfold CallbackInfo.within at hstep
  split at hstep
  next isolate hisolate =>
    have hexception : isolate.exception = info.isolate.exception := by
      cases Isolate.transition_of_step hisolate <;> rfl
    cases hstep
    unfold Balanced at hbalanced ⊢
    simp only [hexception]
    rw [hbalanced]
    abel
  next => simp only [reduceCtorEq] at hstep

/-- Step lemma of a callback body. -/
theorem Balanced.step (hbalanced : info.Balanced start) {op : BodyOp}
    (hstep : bodyStep info op = .ok next) : next.Balanced start := by
  cases op with
  | set handle =>
      cases handle with
      | none =>
          cases hstep
          exact hbalanced.setValue .undefined (by simp) rfl
      | some handle =>
          simp only [bodyStep, CallbackInfo.set] at hstep
          split at hstep
          next value isolate hescape =>
            cases hstep
            obtain ⟨hcount, hexception⟩ := escapeHandle_spec hescape
            exact hbalanced.setValue value hcount hexception
          next => simp only [reduceCtorEq] at hstep
  | setPrimitive primitive =>
      cases hstep
      have hrefs : primitive.value.refs = 0 := by cases primitive <;> rfl
      exact hbalanced.setValue primitive.value (by rw [hrefs, add_zero]) rfl
  | throwException handle =>
      simp only [bodyStep, CallbackInfo.throwException] at hstep
      split at hstep
      next value isolate hescape =>
        cases hstep
        obtain ⟨hcount, hexception⟩ := escapeHandle_spec hescape
        unfold Balanced at hbalanced ⊢
        simp only [hcount, hexception, totalRefs_cons]
        rw [hbalanced]
        abel
      next => simp only [reduceCtorEq] at hstep
  | handle op => exact hbalanced.within hstep
  | engine op => exact hbalanced.within hstep

/-- No operation of a body changes `this_`. -/
theorem this_step {op : BodyOp} (hstep : bodyStep info op = .ok next) : next.this = info.this := by
  have hwithin : ∀ action, info.within action = .ok next → next.this = info.this := by
    intro action haction
    unfold CallbackInfo.within at haction
    split at haction
    · cases haction
      rfl
    · simp only [reduceCtorEq] at haction
  cases op with
  | set handle =>
      cases handle with
      | none =>
          cases hstep
          rfl
      | some handle =>
          simp only [bodyStep, CallbackInfo.set] at hstep
          split at hstep
          · cases hstep
            rfl
          · simp only [reduceCtorEq] at hstep
  | setPrimitive primitive =>
      cases hstep
      rfl
  | throwException handle =>
      simp only [bodyStep, CallbackInfo.throwException] at hstep
      split at hstep
      · cases hstep
        rfl
      · simp only [reduceCtorEq] at hstep
  | handle op => exact hwithin _ hstep
  | engine op => exact hwithin _ hstep

/-- Run lemma of a callback body. -/
theorem Balanced.run (hbalanced : info.Balanced start) {body : List BodyOp}
    (hrun : bodyStep.run info body = .ok next) :
    next.Balanced start ∧ next.this = info.this := by
  apply bodyStep.run_invariant_of_step
    (fun state => state.Balanced start ∧ state.this = info.this) _ ⟨hbalanced, rfl⟩ hrun
  rintro state op after ⟨hstate, hthis⟩ hstep
  exact ⟨hstate.step hstep, (this_step hstep).trans hthis⟩

end CallbackInfo

namespace Wrapper

variable {wrapper : Wrapper}

/-- The reference of the instance that the wrapper has made. -/
def instanceRefs (wrapper : Wrapper) (info : CallbackInfo) : Ptr → Int :=
  if wrapper.createsInstance then info.this.refs else 0

theorem enter_balanced {isolate : Isolate} {thisVal proto : JSValue} {ptr : Ptr}
    {entered : CallbackInfo} (henter : wrapper.enter isolate thisVal proto ptr = .ok entered) :
    entered.Balanced (isolate.runtime.refCount - isolate.exception.refs +
      wrapper.instanceRefs entered) ∧
      (wrapper.createsInstance = false → entered.this = thisVal) := by
  unfold enter at henter
  unfold CallbackInfo.Balanced instanceRefs
  cases hcreates : wrapper.createsInstance with
  | true =>
      simp only [hcreates, if_true] at henter
      split at henter
      · cases henter
        refine ⟨?_, by simp⟩
        simp only [createInstance, Runtime.freeValueRT_refCount, Runtime.produce_refCount,
          Runtime.dupValueRT_refCount, JSValue.refs_undefined, totalRefs_nil, if_true]
        abel
      · simp only [reduceCtorEq] at henter
  | false =>
      simp only [hcreates, Bool.false_eq_true, if_false] at henter
      cases henter
      refine ⟨?_, fun _ => rfl⟩
      simp only [JSValue.refs_undefined, totalRefs_nil, Bool.false_eq_true, if_false]
      abel

theorem returnsThis_of_createsInstance (hcreates : wrapper.createsInstance = true) :
    wrapper.returnsThis = true := by
  cases wrapper with
  | function isConstructCall internalFieldCount =>
      simp only [createsInstance, Bool.and_eq_true] at hcreates
      exact hcreates.1
  | getter => cases hcreates
  | setter => cases hcreates

/-- What the wrapper hands over balances what was left behind. -/
theorem leave_handsOneReference_iff {isolate : Isolate} (thisVal : JSValue) {info : CallbackInfo}
    (hbalanced : info.Balanced (isolate.runtime.refCount - isolate.exception.refs +
      wrapper.instanceRefs info))
    (hthis : wrapper.createsInstance = false → info.this = thisVal) :
    HandsOneReference isolate (wrapper.leave info).1 (wrapper.leave info).2 ↔
      totalRefs (wrapper.leftBehind info) = (wrapper.borrowed thisVal info).refs := by
  unfold CallbackInfo.Balanced at hbalanced
  unfold HandsOneReference
  cases hthrown : info.isolate.exception.isUndefined with
  | false =>
      -- the call throws what is in `exception_`; `value_` is left behind
      have hleave : (wrapper.leave info).1 = .threw info.isolate.exception := by
        simp only [leave, hthrown, Bool.not_false, if_true]
      have hcount : (wrapper.leave info).2.isolate.runtime.refCount =
          info.isolate.runtime.refCount - wrapper.instanceRefs info := by
        simp only [leave, hthrown, Bool.not_false, if_true, dropInstance, instanceRefs]
        split
        · simp only [Runtime.freeValueRT_refCount]
        · simp only [sub_zero]
      have hinfo : (wrapper.leave info).2.drift = info.drift ∧
          (wrapper.leave info).2.value = info.value ∧
          (wrapper.leave info).2.overwritten = info.overwritten := by
        simp only [leave, hthrown, Bool.not_false, if_true, dropInstance]
        split <;> exact ⟨rfl, rfl, rfl⟩
      simp only [hleave, Completion.handed, leftBehind, borrowed, throws, hthrown, Bool.not_false,
        Bool.not_true, Bool.true_or, Bool.false_and, Bool.false_eq_true, if_true, if_false, hcount,
        hinfo, totalRefs_cons, JSValue.refs_undefined, hbalanced]
      constructor
      · intro hhands
        linear_combination hhands
      · intro hnone
        linear_combination hnone
  | true =>
      have hundefined : info.isolate.exception.refs = 0 := by
        rw [show info.isolate.exception = .undefined by simpa [JSValue.isUndefined] using hthrown]
        rfl
      have hleave : wrapper.leave info =
          (.returned (if wrapper.returnsThis then info.this else info.value), info) := by
        simp only [leave, hthrown, Bool.not_true, Bool.false_eq_true, if_false]
      rw [hundefined, add_zero] at hbalanced
      simp only [hleave, Completion.handed, leftBehind, borrowed, throws, hthrown, Bool.not_true,
        Bool.not_false, Bool.false_or, Bool.true_and, hbalanced, instanceRefs]
      cases hreturns : wrapper.returnsThis with
      | false =>
          have hcreates : wrapper.createsInstance = false := by
            cases hcreates : wrapper.createsInstance with
            | false => rfl
            | true => rw [returnsThis_of_createsInstance hcreates] at hreturns; cases hreturns
          simp only [hcreates, Bool.false_eq_true, if_false, Bool.false_and,
            JSValue.refs_undefined]
          constructor
          · intro hhands
            linear_combination hhands
          · intro hnone
            linear_combination hnone
      | true =>
          cases hcreates : wrapper.createsInstance with
          | true =>
              simp only [if_true, Bool.not_true, Bool.and_false, Bool.false_eq_true, if_false,
                JSValue.refs_undefined, totalRefs_cons]
              constructor
              · intro hhands
                linear_combination hhands
              · intro hnone
                linear_combination hnone
          | false =>
              rw [hthis hcreates]
              simp only [if_true, Bool.not_false, Bool.and_true, Bool.false_eq_true, if_false,
                totalRefs_cons]
              constructor
              · intro hhands
                linear_combination hhands
              · intro hsame
                linear_combination hsame

/-- An invocation hands over one reference and leaves no other exactly when the
references left behind are those it has borrowed. -/
theorem call_handsOneReference_iff (isolate : Isolate) (thisVal proto : JSValue) (ptr : Ptr)
    (body : List BodyOp) {info : CallbackInfo}
    (hinvoke : wrapper.invoke isolate thisVal proto ptr body = .ok info) :
    ∃ completion final, wrapper.call isolate thisVal proto ptr body = .ok (completion, final) ∧
      (HandsOneReference isolate completion final ↔
        totalRefs (wrapper.leftBehind info) = (wrapper.borrowed thisVal info).refs) := by
  refine ⟨(wrapper.leave info).1, (wrapper.leave info).2, ?_, ?_⟩
  · simp only [call, hinvoke, Except.map]
  · unfold invoke at hinvoke
    split at hinvoke
    · simp only [reduceCtorEq] at hinvoke
    next entered henter =>
      obtain ⟨hentered, hthis⟩ := enter_balanced henter
      obtain ⟨hbalanced, hsame⟩ := hentered.run hinvoke
      have hrefs : wrapper.instanceRefs info = wrapper.instanceRefs entered := by
        simp only [instanceRefs, hsame]
      rw [← hrefs] at hbalanced
      exact leave_handsOneReference_iff thisVal hbalanced
        fun hcreates => hsame.trans (hthis hcreates)

/-- A function that returns the object of a handle. -/
theorem call_handsOneReference_iff_set :
    ∃ isolate info, Isolate.step.run Isolate.new Isolate.nested = .ok isolate ∧
      (Wrapper.function false 0).invoke isolate .undefined .undefined 1
        [.set (some (.slot 0))] = .ok info ∧
      ∃ completion final, (Wrapper.function false 0).call isolate .undefined .undefined 1
          [.set (some (.slot 0))] = .ok (completion, final) ∧
        (HandsOneReference isolate completion final ↔
          totalRefs ((Wrapper.function false 0).leftBehind info) =
            ((Wrapper.function false 0).borrowed .undefined info).refs) :=
  ⟨_, _, rfl, rfl, call_handsOneReference_iff _ .undefined .undefined 1 [.set (some (.slot 0))] rfl⟩

/-- Setting the return value twice leaves the first reference behind. -/
theorem set_twice_leaks :
    ∃ isolate completion final, Isolate.step.run Isolate.new Isolate.nested = .ok isolate ∧
      Wrapper.getter.call isolate .undefined .undefined 1
        [.set (some (.slot 0)), .set (some (.slot 0))] = .ok (completion, final) ∧
      ¬ HandsOneReference isolate completion final := by
  refine ⟨_, _, _, rfl, rfl, fun hhands => ?_⟩
  have hcount := congrFun hhands 0
  exact absurd hcount (by decide)

end Wrapper

end QuickjsBackend
