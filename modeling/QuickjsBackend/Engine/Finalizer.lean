import Mathlib.Algebra.Order.Group.Multiset
import QuickjsBackend.Engine.Runtime

/-! # What becomes of a cell

A step of the runtime leaves a cell as it was, allocates it, condemns it, or lets
it die. In the last case the finalizer calls the one weak callback that the user
data of the object has room for.
-/

namespace QuickjsBackend

/-- The callback in the user data, with its parameter. -/
def ObjectUserData.registration (objectUdata : ObjectUserData) : Option (Nat × Nat) :=
  objectUdata.callback.map fun callback => (callback, objectUdata.parameter)

/-- At most one registration, as a multiset. -/
def single : Option (Nat × Nat) → Multiset (Nat × Nat)
  | none => 0
  | some registration => {registration}

@[simp] theorem single_none : single none = 0 := rfl

@[simp] theorem single_some (registration : Nat × Nat) :
    single (some registration) = {registration} := rfl

@[simp] theorem single_eq_zero_iff {registration : Option (Nat × Nat)} :
    single registration = 0 ↔ registration = none := by
  cases registration with
  | none => simp [single]
  | some registration => simp [single]

namespace Runtime

variable (rt : Runtime) (ptr : Ptr)

/-- The registration the finalizer of the object will find. -/
def registration : Option (Nat × Nat) :=
  (rt.userData ptr).bind ObjectUserData.registration

/-- The weak callbacks called for the object so far. -/
def calls : Multiset (Nat × Nat) :=
  rt.invoked.filterMap fun call => if call.1 = ptr then call.2.registration else none

/-- Only allocated cells have user data. -/
def DataAllocated : Prop := ∀ ptr, ¬ (rt.cell ptr).Allocated → rt.userData ptr = none

/-- What a step can do to one cell. -/
inductive Fate (rt next : Runtime) (ptr : Ptr) : Prop
  | kept (hcell : next.cell ptr = rt.cell ptr) (hdata : next.userData ptr = rt.userData ptr)
      (hcalls : next.calls ptr = rt.calls ptr)
  | born (hunused : rt.cell ptr = .unused) (hcell : next.cell ptr = .live)
      (hnone : next.registration ptr = none) (hcalls : next.calls ptr = rt.calls ptr)
  | condemned (hlive : rt.cell ptr = .live) (hcell : next.cell ptr = .condemned)
      (hdata : next.userData ptr = rt.userData ptr) (hcalls : next.calls ptr = rt.calls ptr)
  | died (hcell : next.cell ptr = .freed) (hdata : next.userData ptr = none)
      (hcalls : next.calls ptr = rt.calls ptr + single (rt.registration ptr))

variable {rt ptr} {next other : Runtime}

theorem Fate.refl : Fate rt rt ptr := .kept rfl rfl rfl

/-- Counts play no part in it. -/
theorem Fate.congr (hfate : Fate rt next ptr) (hcell : other.cell = next.cell)
    (hdata : other.userData = next.userData) (hinvoked : other.invoked = next.invoked) :
    Fate rt other ptr := by
  have hcalls : other.calls ptr = next.calls ptr := by rw [calls, hinvoked, calls]
  have hregistration : other.registration ptr = next.registration ptr := by
    rw [registration, hdata, registration]
  cases hfate with
  | kept hkept hsame hnone =>
      exact .kept (by rw [hcell, hkept]) (by rw [hdata, hsame]) (by rw [hcalls, hnone])
  | born hunused hlive hnone hsame =>
      exact .born hunused (by rw [hcell, hlive]) (by rw [hregistration, hnone])
        (by rw [hcalls, hsame])
  | condemned hlive hdead hsame hnone =>
      exact .condemned hlive (by rw [hcell, hdead]) (by rw [hdata, hsame]) (by rw [hcalls, hnone])
  | died hfreed hnone hmore =>
      exact .died (by rw [hcell, hfreed]) (by rw [hdata, hnone]) (by rw [hcalls, hmore])

theorem fate_dupValueRT (value : JSValue) : Fate rt (rt.dupValueRT value) ptr :=
  Fate.refl.congr rfl rfl rfl

theorem v8FinalizerWrap_userData_self : (rt.v8FinalizerWrap ptr).userData ptr = none := by
  unfold v8FinalizerWrap
  split
  next hnone => exact hnone
  next => exact Function.update_self ..

theorem v8FinalizerWrap_userData_of_ne {target : Ptr} (hne : ptr ≠ target) :
    (rt.v8FinalizerWrap target).userData ptr = rt.userData ptr := by
  unfold v8FinalizerWrap
  split
  next => rfl
  next => exact Function.update_of_ne hne ..

/-- The finalizer calls what is registered. -/
theorem v8FinalizerWrap_calls_self :
    (rt.v8FinalizerWrap ptr).calls ptr = rt.calls ptr + single (rt.registration ptr) := by
  unfold v8FinalizerWrap
  split
  next hnone => simp [registration, hnone, single]
  next objectUdata hdata =>
    cases hcallback : objectUdata.callback with
    | none => simp [registration, hdata, ObjectUserData.registration, hcallback, calls, single]
    | some callback =>
        simp [registration, hdata, ObjectUserData.registration, hcallback, calls, single,
          List.filterMap_append]
        rfl

theorem v8FinalizerWrap_calls_of_ne {target : Ptr} (hne : ptr ≠ target) :
    (rt.v8FinalizerWrap target).calls ptr = rt.calls ptr := by
  unfold v8FinalizerWrap
  split
  next => rfl
  next objectUdata hdata =>
    cases hcallback : objectUdata.callback with
    | none => simp [calls]
    | some callback => simp [calls, List.filterMap_append, Ne.symm hne]

@[simp] theorem freeObject_calls_self :
    (rt.freeObject ptr).calls ptr = rt.calls ptr + single (rt.registration ptr) :=
  v8FinalizerWrap_calls_self

theorem fate_freeObject (target : Ptr) : Fate rt (rt.freeObject target) ptr := by
  by_cases heq : ptr = target
  · subst target
    exact .died (Function.update_self ..) v8FinalizerWrap_userData_self freeObject_calls_self
  · exact .kept (Function.update_of_ne heq ..) (v8FinalizerWrap_userData_of_ne heq)
      (v8FinalizerWrap_calls_of_ne heq)

theorem fate_condemn (target : Ptr) : Fate rt (rt.condemn target) ptr := by
  unfold condemn
  split
  next hlive =>
    by_cases heq : ptr = target
    · subst target
      exact .condemned hlive (Function.update_self ..) rfl rfl
    · exact .kept (Function.update_of_ne heq ..) rfl rfl
  next => exact Fate.refl

theorem fate_freeZeroRefCount (kind : RefTag) (target : Ptr) :
    Fate rt (rt.freeZeroRefCount kind target) ptr := by
  unfold freeZeroRefCount
  split
  · split
    · exact (fate_freeObject target).congr rfl rfl rfl
    · exact fate_condemn target
    · exact Fate.refl
  · exact fate_freeObject target

theorem fate_freeValueRT (value : JSValue) : Fate rt (rt.freeValueRT value) ptr := by
  cases value with
  | ref kind target =>
      simp only [freeValueRT]
      split
      · have hfate : Fate { rt with refCount := rt.refCount - (JSValue.ref kind target).refs } _ ptr :=
          fate_freeZeroRefCount kind target
        cases hfate with
        | kept hcell hdata hcalls => exact .kept hcell hdata hcalls
        | born hunused hcell hnone hcalls => exact .born hunused hcell hnone hcalls
        | condemned hlive hcell hdata hcalls => exact .condemned hlive hcell hdata hcalls
        | died hcell hdata hcalls => exact .died hcell hdata hcalls
      · exact Fate.refl.congr rfl rfl rfl
  | _ => exact Fate.refl

theorem fate_produce (value : JSValue) (hdata : rt.DataAllocated) (hvalue : rt.Available value) :
    Fate rt (rt.produce value) ptr := by
  cases value with
  | ref kind target =>
      by_cases heq : ptr = target
      · subst target
        have hlive : (rt.produce (.ref kind ptr)).cell ptr = .live := Function.update_self ..
        rcases hvalue kind ptr rfl with hunused | hcell
        · have hnone : rt.userData ptr = none :=
            hdata ptr (by simp only [hunused, CellState.Allocated, not_false_eq_true])
          exact .born hunused hlive (by simp [registration, produce, hnone]) rfl
        · exact .kept (hlive.trans hcell.symm) rfl rfl
      · exact .kept (Function.update_of_ne heq ..) rfl rfl
  | _ => exact Fate.refl

/-- User data of dead and of unallocated objects stays gone. -/
theorem DataAllocated.of_fate (hdata : rt.DataAllocated) (hfate : ∀ ptr, Fate rt next ptr) :
    next.DataAllocated := by
  intro ptr hcell
  cases hfate ptr with
  | kept hsame hkept =>
      rw [hkept]
      exact hdata ptr (by rwa [hsame] at hcell)
  | born hunused hlive => exact absurd (by rw [hlive]; trivial) hcell
  | condemned hlive hcondemned => exact absurd (by rw [hcondemned]; trivial) hcell
  | died hfreed hnone => exact hnone

end Runtime

end QuickjsBackend
