import QuickjsBackend.Engine.Value
import QuickjsBackend.Scope.Restoration

/-! # What a TryCatch has caught

`TryCatch::handleException` takes the exception from the engine, with its reference, and
overwrites `catched_`. The destructor releases what `catched_` holds then. Both go
through the context that is current at that moment.
-/

namespace QuickjsBackend

open Foundation

theorem totalRefs_eq_zero_iff {values : List JSValue} :
    totalRefs values = 0 ↔ ∀ value ∈ values, value.hasRefCount = false := by
  induction values with
  | nil => simp
  | cons value rest ih =>
      rw [totalRefs_cons, add_eq_zero_iff_of_nonneg value.refs_nonneg (totalRefs_nonneg rest), ih,
        JSValue.refs_eq_zero_iff, List.forall_mem_cons]

/-- A `TryCatch`. -/
structure TryCatch where
  catched : JSValue
  -- proof-facing: what it took from the engine, and by how much it has lowered the counts
  taken : List JSValue
  lowered : Ptr → Int

namespace TryCatch

/-- The constructor. -/
def new : TryCatch := ⟨.undefined, [], 0⟩

/-- `TryCatch::handleException`, with what `JS_GetException` answers. -/
def handleException (tryCatch : TryCatch) (ex : JSValue) : TryCatch :=
  { tryCatch with catched := ex, taken := tryCatch.taken ++ [ex] }

/-- The last exception is the one in `catched_`, and none has been released. -/
structure Latest (tryCatch : TryCatch) : Prop where
  catched : tryCatch.catched = tryCatch.taken.getLast?.getD .undefined
  lowered : tryCatch.lowered = 0

variable {tryCatch : TryCatch}

theorem latest_new : new.Latest := ⟨rfl, rfl⟩

theorem Latest.handleException (hlatest : tryCatch.Latest) (ex : JSValue) :
    (tryCatch.handleException ex).Latest where
  catched := by
    rw [TryCatch.handleException, List.getLast?_append_of_ne_nil _ (List.cons_ne_nil _ _)]
    rfl
  lowered := hlatest.lowered

/-- One exception is in `catched_`; the others must not need a release. -/
theorem Latest.refs_eq_iff (hlatest : tryCatch.Latest) :
    tryCatch.catched.refs = totalRefs tryCatch.taken ↔
      ∀ ex ∈ tryCatch.taken.dropLast, ex.hasRefCount = false := by
  rw [← totalRefs_eq_zero_iff, hlatest.catched]
  rcases List.eq_nil_or_concat tryCatch.taken with hnil | ⟨earlier, last, htaken⟩
  · simp [hnil]
  · rw [List.concat_eq_append] at htaken
    rw [htaken, List.dropLast_concat, List.getLast?_append_of_ne_nil _ (List.cons_ne_nil _ _),
      totalRefs_append]
    simp

end TryCatch

/-- The native stack, with the `TryCatch` objects by their addresses and the reference
counts of the engine. -/
structure Catching where
  thread : Thread
  tryCatches : Nat → TryCatch
  refCount : Ptr → Int
  -- proof-facing: the objects that were destroyed, the last one first
  ended : List TryCatch

/-- What the native code does; an operation that throws calls `handleException` of its
isolate. Other code changes the counts. -/
inductive CatchAction
  | thread (action : ThreadAction)
  | throw (isolate : Nat) (ex : JSValue)
  | other (refCount : Ptr → Int)

namespace Catching

/-- No scope is open. -/
def idle (ambient : Ambient) (jobs : Nat → List Job) (refCount : Ptr → Int) : Catching :=
  ⟨.idle ambient jobs, fun _ => .new, refCount, []⟩

/-- The `TryCatch` whose destructor the action begins. -/
def destroyed (c : Catching) : CatchAction → Option Nat
  | .thread .destruct =>
      match c.thread.stack with
      | ⟨.scope (.tryCatch _ address) (.tryCatch _ _), _, _⟩ :: _ => some address
      | _ => none
  | _ => none

/-- The destructor frees `catched_`. -/
def destroy (c : Catching) (address : Nat) : Catching :=
  let tryCatch := c.tryCatches address
  let after := c.refCount - tryCatch.catched.refs
  { c with
    tryCatches := Function.update c.tryCatches address .new
    refCount := after
    ended := { tryCatch with lowered := tryCatch.lowered + (c.refCount - after) } :: c.ended }

/-- The objects after an action of the native stack. -/
def update (c : Catching) (action : ThreadAction) : Catching :=
  match action with
  | .construct (.tryCatch _ address) =>
      { c with tryCatches := Function.update c.tryCatches address .new }
  | other =>
      match c.destroyed (.thread other) with
      | some address => c.destroy address
      | none => c

/-- `Isolate::handleException`: without a `TryCatch` the exception is reported and
freed. In either case it is taken from the engine through the current context. -/
def handleException (c : Catching) (isolate : Nat) (ex : JSValue) :
    Except ThreadFault Catching :=
  match c.thread.ambient.context isolate with
  | none => .error .nullDeref
  | some _ =>
      match c.thread.ambient.tryCatch isolate with
      | none => .ok { c with refCount := c.refCount - ex.refs }
      | some address =>
          .ok { c with
            tryCatches := Function.update c.tryCatches address
              ((c.tryCatches address).handleException ex) }

def step (setup : Setup) : StepFn Catching CatchAction ThreadFault := fun c action =>
  match action with
  | .thread action =>
      match Thread.step setup c.thread action with
      | .ok next => .ok { c.update action with thread := next }
      | .error fault => .error fault
  | .throw isolate ex => c.handleException isolate ex
  | .other refCount => .ok { c with refCount }

/-- An exception finds its `TryCatch`. The destruction of a `TryCatch` succeeds, and
with it every exception that was taken has been released, once. -/
structure ReleasesCaught (c : Catching) (action : CatchAction)
    (outcome : Except ThreadFault Catching) : Prop where
  caught : ∀ isolate ex, action = .throw isolate ex → ∃ next, outcome = .ok next
  released : ∀ address, c.destroyed action = some address → ∃ next tryCatch,
    outcome = .ok next ∧ next.ended = tryCatch :: c.ended ∧
      tryCatch.lowered = totalRefs tryCatch.taken

/-- Operations throw in a context. A `TryCatch` is destroyed in a context, and at most
the last of its exceptions has a reference count. -/
structure CatchesOnce (c : Catching) (action : CatchAction) : Prop where
  throws : ∀ isolate ex, action = .throw isolate ex → c.thread.ambient.context isolate ≠ none
  destroys : ∀ address, c.destroyed action = some address → c.thread.CatchesInContext .destruct ∧
    ∀ ex ∈ (c.tryCatches address).taken.dropLast, ex.hasRefCount = false

def Latest (c : Catching) : Prop := ∀ address, (c.tryCatches address).Latest

theorem latest_idle (ambient : Ambient) (jobs : Nat → List Job) (refCount : Ptr → Int) :
    (idle ambient jobs refCount).Latest :=
  fun _ => TryCatch.latest_new

variable {setup : Setup} {c next : Catching}

theorem Latest.set (hlatest : c.Latest) (address : Nat) {tryCatch : TryCatch}
    (htryCatch : tryCatch.Latest) (other : Nat) :
    (Function.update c.tryCatches address tryCatch other).Latest := by
  by_cases heq : other = address
  · subst other
    rwa [Function.update_self]
  · rw [Function.update_of_ne heq]
    exact hlatest other

theorem Latest.update (hlatest : c.Latest) (action : ThreadAction) : (c.update action).Latest := by
  unfold Catching.update
  split
  next address => exact hlatest.set address TryCatch.latest_new
  next =>
    split
    next address _ => exact hlatest.set address TryCatch.latest_new
    next => exact hlatest

theorem Latest.step (hlatest : c.Latest) {action : CatchAction}
    (hstep : step setup c action = .ok next) : next.Latest := by
  cases action with
  | thread action =>
      simp only [Catching.step] at hstep
      split at hstep
      next middle hmiddle =>
        cases hstep
        exact hlatest.update action
      next => cases hstep
  | throw isolate ex =>
      simp only [Catching.step, handleException] at hstep
      split at hstep
      next => cases hstep
      next =>
        split at hstep
        next =>
          cases hstep
          exact hlatest
        next address _ =>
          cases hstep
          exact hlatest.set address ((hlatest address).handleException ex)
  | other refCount =>
      cases hstep
      exact hlatest

theorem destroyed_eq {action : CatchAction} {address : Nat}
    (hdestroyed : c.destroyed action = some address) :
    action = .thread .destruct ∧ ∃ id isolate prev opened entered rest,
      c.thread.stack =
        ⟨.scope (.tryCatch id address) (.tryCatch isolate prev), opened, entered⟩ :: rest := by
  unfold destroyed at hdestroyed
  split at hdestroyed
  next =>
    split at hdestroyed
    next hstack =>
      cases hdestroyed
      exact ⟨rfl, _, _, _, _, _, _, hstack⟩
    next => cases hdestroyed
  next => cases hdestroyed

/-- The destructor of a `TryCatch` fails only where there is no context. -/
theorem destruct_ok_iff {id address isolate : Nat} {prev : Option Nat} {opened entered : Ambient}
    {rest : List ScopeFrame} (hstack : c.thread.stack =
      ⟨.scope (.tryCatch id address) (.tryCatch isolate prev), opened, entered⟩ :: rest) :
    (∃ next, Thread.step setup c.thread .destruct = .ok next) ↔
      c.thread.CatchesInContext .destruct := by
  rw [← not_iff_not, ← Thread.step_nullDeref_iff setup]
  simp only [Thread.step, hstack, Thread.destruct]
  split
  next => simp
  next => simp

theorem handleException_ok_iff (isolate : Nat) (ex : JSValue) :
    (∃ next, c.handleException isolate ex = .ok next) ↔
      c.thread.ambient.context isolate ≠ none := by
  unfold handleException
  cases c.thread.ambient.context isolate with
  | none => simp
  | some context => cases c.thread.ambient.tryCatch isolate <;> simp

/-- The counts go down by what `catched_` holds. -/
theorem Latest.destroys_iff (hlatest : c.Latest) {action : CatchAction} {address : Nat}
    (hdestroyed : c.destroyed action = some address) :
    (∃ next tryCatch, Catching.step setup c action = .ok next ∧ next.ended = tryCatch :: c.ended ∧
        tryCatch.lowered = totalRefs tryCatch.taken) ↔
      c.thread.CatchesInContext .destruct ∧
        ∀ ex ∈ (c.tryCatches address).taken.dropLast, ex.hasRefCount = false := by
  obtain ⟨rfl, id, isolate, prev, opened, entered, rest, hstack⟩ := destroyed_eq hdestroyed
  rw [← destruct_ok_iff hstack, ← (hlatest address).refs_eq_iff]
  cases hstep : Thread.step setup c.thread .destruct with
  | error fault => simp [Catching.step, hstep]
  | ok middle =>
      simp [Catching.step, hstep, Catching.update, hdestroyed, destroy, (hlatest address).lowered]

theorem releasesCaught_step_iff (hlatest : c.Latest) (action : CatchAction) :
    c.ReleasesCaught action (step setup c action) ↔ c.CatchesOnce action := by
  constructor
  · rintro ⟨hcaught, hreleased⟩
    refine ⟨?_, fun address hdestroyed =>
      (hlatest.destroys_iff hdestroyed).mp (hreleased address hdestroyed)⟩
    rintro isolate ex rfl
    exact (handleException_ok_iff isolate ex).mp (hcaught isolate ex rfl)
  · rintro ⟨hthrows, hdestroys⟩
    refine ⟨?_, fun address hdestroyed =>
      (hlatest.destroys_iff hdestroyed).mpr (hdestroys address hdestroyed)⟩
    rintro isolate ex rfl
    exact (handleException_ok_iff isolate ex).mpr (hthrows isolate ex rfl)

/-- In every run of scopes, operations that throw, jobs and callbacks, every exception
is caught and every `TryCatch` is destroyed and has released what it has caught exactly
as long as operations throw and each `TryCatch` is destroyed in a context, and each
caught at most one exception with a reference count, the last one. -/
theorem releasesCaught_iff (setup : Setup) (ambient : Ambient) (jobs : Nat → List Job)
    (refCount : Ptr → Int) (actions : List CatchAction) :
    (step setup).Always ReleasesCaught (idle ambient jobs refCount) actions ↔
      (step setup).Always (fun c action _ => c.CatchesOnce action) (idle ambient jobs refCount)
        actions :=
  (step setup).always_iff_of_invariant Latest
    (fun _ action hlatest => releasesCaught_step_iff hlatest action)
    (fun _ _ _ hlatest _ hstep => hlatest.step hstep) actions (latest_idle ambient jobs refCount)

/-- One `TryCatch` around two operations that throw. -/
theorem first_of_two_leaks :
    ¬ ∀ (setup : Setup) (ambient : Ambient) (jobs : Nat → List Job) (refCount : Ptr → Int)
        (actions : List CatchAction),
      (step setup).Always ReleasesCaught (idle ambient jobs refCount) actions := by
  intro hall
  have hlast := (step .single).always_iff_forall_reached.mp
    (hall .single .outside (fun _ => []) (fun _ => 1) [.thread (.construct (.isolate 0)),
      .thread (.construct (.context 0)), .thread (.construct (.tryCatch 0 9)),
      .throw 0 (.ref .object 1), .throw 0 (.ref .object 2), .thread .destruct])
    [.thread (.construct (.isolate 0)), .thread (.construct (.context 0)),
      .thread (.construct (.tryCatch 0 9)), .throw 0 (.ref .object 1), .throw 0 (.ref .object 2)]
    (.thread .destruct) [] _ rfl rfl
  obtain ⟨next, tryCatch, hnext, hended, hreleased⟩ := hlast.released 9 rfl
  cases hnext
  cases hended
  exact absurd (congrFun hreleased 1) (by decide)

end Catching

end QuickjsBackend
