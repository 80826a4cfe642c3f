import QuickjsBackend.Promise.Machine

/-! # Promises are settled once

A pending promise can be settled in one way at a time: by a pair of resolving functions
neither of which was called, by a lookup of `then` that has not ended, or by a job that is
to call `then`. A settled promise cannot be settled again.
-/

namespace QuickjsBackend

open Foundation

/-- Neither function of the pair was called. -/
def PromiseFunctionDataResolved.opens (promise : Ptr) (r : PromiseFunctionDataResolved) : Bool :=
  !r.alreadyResolved && r.promise == promise

/-- The lookup of `then` decides about the promise. -/
def PromiseFrame.opens (promise : Ptr) : PromiseFrame → Bool
  | .resolve other _ => other == promise
  | _ => false

/-- The job makes new resolving functions for the promise. -/
def PromiseJob.opens (promise : Ptr) : PromiseJob → Bool
  | .resolveThenable other _ _ => other == promise
  | _ => false

namespace PromiseRuntime

/-- In how many ways the promise can be settled. -/
def ways (rt : PromiseRuntime) (promise : Ptr) : Nat :=
  rt.resolved.countP (·.opens promise) + rt.frames.countP (·.opens promise) +
    rt.jobList.countP (·.opens promise)

def stateOf (rt : PromiseRuntime) (promise : Ptr) : Option PromiseStateEnum :=
  (rt.promises promise).map (·.promiseState)

/-- Pending promises, and no others, can be settled, in one way each; the ways of some
have just been taken. -/
structure OneWay (taken : List Ptr) (rt : PromiseRuntime) : Prop where
  ways : ∀ promise, rt.ways promise + taken.count promise =
    if rt.stateOf promise = some .pending then 1 else 0
  functions : ∀ {func d}, rt.functions func = some d →
    ∃ r, rt.resolved[d.presolved]? = some r ∧ r.promise = d.promise
  bounded : ∀ {promise s}, rt.promises promise = some s → promise < rt.created

variable {rt next : PromiseRuntime} {promise other : Ptr} {s : PromiseData} {value : JSValue}
  {isReject : Bool} {frame : PromiseFrame} {frames : List PromiseFrame} {taken : List Ptr}
  {isFunction : JSValue → Bool}

theorem stateOf_eq (hpromise : rt.promises promise = some s) :
    rt.stateOf promise = some s.promiseState := by
  rw [stateOf, hpromise, Option.map_some]

theorem stateOf_setPromise (rt : PromiseRuntime) (promise : Ptr) (s : PromiseData) :
    (rt.setPromise promise s).stateOf =
      Function.update rt.stateOf promise (some s.promiseState) := by
  funext other
  by_cases heq : other = promise
  · subst other
    simp [stateOf, setPromise]
  · simp [stateOf, setPromise, heq]

/-- A promise is written whose state stays. -/
theorem stateOf_setPromise_of_eq (written : PromiseData)
    (hpromise : rt.promises promise = some s) (hstate : written.promiseState = s.promiseState) :
    (rt.setPromise promise written).stateOf = rt.stateOf := by
  rw [stateOf_setPromise, hstate, ← stateOf_eq hpromise, Function.update_eq_self]

theorem ways_push (hframe : frame.opens promise = false) :
    (rt.push frame).ways promise = rt.ways promise := by
  simp [ways, push, hframe]

theorem countP_reaction (reactions : List PromiseReactionData) :
    (reactions.map fun rd => PromiseJob.reaction rd isReject value).countP (·.opens promise) =
      0 := by
  simp [List.countP_eq_zero, PromiseJob.opens]

theorem stateOf_flushReactions :
    (rt.flushReactions promise value isReject).stateOf = rt.stateOf := by
  rw [flushReactions]
  cases hpromise : rt.promises promise with
  | none => rfl
  | some s =>
      exact stateOf_setPromise_of_eq { s with promiseReactions := fun _ => [] } hpromise rfl

theorem ways_flushReactions :
    (rt.flushReactions promise value isReject).ways other = rt.ways other := by
  rw [flushReactions]
  cases hpromise : rt.promises promise with
  | none => rfl
  | some s =>
      simp only [ways, setPromise, List.countP_append, countP_reaction, Nat.add_zero]

namespace OneWay

/-- What does not touch states, ways and functions. -/
theorem congr (hrt : OneWay taken rt) (hstate : next.stateOf = rt.stateOf)
    (hways : ∀ promise, next.ways promise = rt.ways promise)
    (hfunctions : next.functions = rt.functions) (hresolved : next.resolved = rt.resolved)
    (hcreated : rt.created ≤ next.created) : OneWay taken next where
  ways promise := by rw [hways, hstate, hrt.ways]
  functions hfunc := by
    rw [hfunctions] at hfunc
    rw [hresolved]
    exact hrt.functions hfunc
  bounded {promise s} hpromise := by
    have hsome := congrFun hstate promise
    rw [stateOf_eq hpromise, stateOf] at hsome
    cases hold : rt.promises promise with
    | none =>
        rw [hold] at hsome
        cases hsome
    | some s => exact Nat.lt_of_lt_of_le (hrt.bounded hold) hcreated

/-- The promise whose way was taken is pending, and nothing else can settle it. -/
theorem pending (hrt : OneWay [promise] rt) :
    (∃ s, rt.promises promise = some s ∧ s.promiseState = .pending) ∧ rt.ways promise = 0 := by
  have hways := hrt.ways promise
  rw [List.count_singleton_self] at hways
  split at hways
  · rename_i hstate
    rw [stateOf, Option.map_eq_some_iff] at hstate
    exact ⟨hstate, by omega⟩
  · omega

theorem flushReactions (hrt : OneWay taken rt) :
    OneWay taken (rt.flushReactions promise value isReject) := by
  refine hrt.congr stateOf_flushReactions (fun _ => ways_flushReactions) ?_ ?_ ?_ <;>
    simp only [PromiseRuntime.flushReactions] <;> split <;> rfl

theorem push (hrt : OneWay taken rt) (hframe : ∀ promise, frame.opens promise = false) :
    OneWay taken (rt.push frame) :=
  hrt.congr rfl (fun promise => ways_push (hframe promise)) rfl rfl (Nat.le_refl _)

/-- The promise is settled. -/
theorem fulfillOrRejectPromise (hrt : OneWay [promise] rt) (value : JSValue) (isReject : Bool) :
    OneWay [] (rt.fulfillOrRejectPromise promise value isReject) := by
  obtain ⟨⟨s, hpromise, hpending⟩, hnone⟩ := hrt.pending
  have hsettled : OneWay [] (rt.setPromise promise { s with
      promiseResult := value, promiseState := .settled isReject }) := by
    refine ⟨fun other => ?_, hrt.functions, fun {other t} hother => ?_⟩
    · rw [stateOf_setPromise, List.count_nil, Nat.add_zero]
      change rt.ways other = _
      by_cases heq : other = promise
      · subst other
        rw [Function.update_self, hnone]
        cases isReject <;> rfl
      · have hways := hrt.ways other
        rw [List.count_eq_zero.mpr (by simpa using heq), Nat.add_zero] at hways
        rw [Function.update_of_ne heq, hways]
    · by_cases heq : other = promise
      · rw [heq]
        exact hrt.bounded hpromise
      · exact hrt.bounded ((Function.update_of_ne heq _ _).symm.trans hother)
  rw [PromiseRuntime.fulfillOrRejectPromise, hpromise]
  simp only [hpending, ne_eq, not_true_eq_false, if_false]
  split
  · exact hsettled.congr rfl (fun other => ways_push rfl) rfl rfl (Nat.le_refl _)
  · exact hsettled.flushReactions

/-- New resolving functions for a promise that lost its way. -/
theorem createResolvingFunctions (hrt : OneWay [promise] rt) :
    OneWay [] (rt.createResolvingFunctions promise) := by
  refine ⟨fun other => ?_, fun {func d} hfunc => ?_, fun hpromise =>
    Nat.lt_of_lt_of_le (hrt.bounded hpromise) (Nat.le_add_right _ 2)⟩
  · have hways := hrt.ways other
    have hstate : (rt.createResolvingFunctions promise).stateOf = rt.stateOf := rfl
    rw [hstate, ← hways, List.count_nil, Nat.add_zero]
    simp only [PromiseRuntime.ways, PromiseRuntime.createResolvingFunctions, List.countP_append,
      List.countP_singleton, PromiseFunctionDataResolved.opens, Bool.not_false, Bool.true_and,
      List.count_singleton, beq_iff_eq]
    omega
  · have hnew : ∀ isReject, ∃ r, (rt.createResolvingFunctions promise).resolved[
        (⟨promise, rt.resolved.length, isReject⟩ : PromiseFunctionData).presolved]? = some r ∧
        r.promise = promise := fun _ => ⟨⟨false, promise⟩, by
          simp [PromiseRuntime.createResolvingFunctions], rfl⟩
    simp only [PromiseRuntime.createResolvingFunctions] at hfunc
    by_cases hsecond : func = rt.created + 1
    · rw [hsecond, Function.update_self, Option.some.injEq] at hfunc
      subst d
      exact hnew true
    · rw [Function.update_of_ne hsecond] at hfunc
      by_cases hfirst : func = rt.created
      · rw [hfirst, Function.update_self, Option.some.injEq] at hfunc
        subst d
        exact hnew false
      · rw [Function.update_of_ne hfirst] at hfunc
        obtain ⟨r, hr, hsame⟩ := hrt.functions hfunc
        refine ⟨r, ?_, hsame⟩
        simp only [PromiseRuntime.createResolvingFunctions]
        rw [List.getElem?_append_left (List.getElem?_eq_some_iff.mp hr).1, hr]

theorem subscribe (hrt : OneWay taken rt) (promise : Ptr) (resolvingFuncs : JSValue × JSValue)
    (onFulfilled onRejected : JSValue) :
    OneWay taken (rt.subscribe promise resolvingFuncs onFulfilled onRejected) := by
  rw [PromiseRuntime.subscribe]
  cases hpromise : rt.promises promise with
  | none => exact hrt
  | some s =>
      dsimp only
      split
      · exact hrt.congr (stateOf_setPromise_of_eq _ hpromise rfl) (fun _ => rfl) rfl rfl
          (Nat.le_refl _)
      · refine hrt.congr (stateOf_setPromise_of_eq _ hpromise rfl) (fun other => ?_) rfl rfl
          (Nat.le_refl _)
        simp [PromiseRuntime.ways, setPromise, PromiseJob.opens]

theorem performPromiseThen (hrt : OneWay taken rt) (promise : Ptr)
    (onFulfilled onRejected : JSValue) (resolvingFuncs : JSValue × JSValue) :
    OneWay taken (rt.performPromiseThen isFunction promise onFulfilled onRejected
      resolvingFuncs) := by
  rw [PromiseRuntime.performPromiseThen]
  cases hpromise : rt.promises promise with
  | none => exact hrt
  | some s =>
      dsimp only
      split
      · exact hrt.congr rfl (fun other => ways_push rfl) rfl rfl (Nat.le_refl _)
      · exact hrt.subscribe _ _ _ _

/-- A resolving function whose pair was not called takes the way of its promise. -/
theorem resolveFunctionCall (hrt : OneWay [] rt) {func : Ptr} {d : PromiseFunctionData}
    (hfunc : rt.functions func = some d) (resolution : JSValue) :
    OneWay [] (rt.resolveFunctionCall d resolution) := by
  obtain ⟨r, hr, hpromise⟩ := hrt.functions hfunc
  rw [PromiseRuntime.resolveFunctionCall, hr]
  cases halready : r.alreadyResolved with
  | true => simpa only [halready, if_true] using hrt
  | false =>
      obtain ⟨hlt, hget⟩ := List.getElem?_eq_some_iff.mp hr
      have htaken : OneWay [d.promise] { rt with
          resolved := rt.resolved.set d.presolved { r with alreadyResolved := true } } := by
        refine ⟨fun other => ?_, fun {other e} hother => ?_, hrt.bounded⟩
        · have hways := hrt.ways other
          rw [List.count_nil, Nat.add_zero] at hways
          refine Eq.trans ?_ hways
          have hle := List.boole_getElem_le_countP
            (p := fun r => PromiseFunctionDataResolved.opens other r) hlt
          simp only [PromiseRuntime.ways, List.countP_set hlt, hget,
            PromiseFunctionDataResolved.opens, halready, Bool.not_false, Bool.true_and,
            Bool.not_true, Bool.false_and, Bool.false_eq_true, if_false, hpromise,
            List.count_singleton, beq_iff_eq] at hle ⊢
          split <;> rename_i heq <;> simp only [heq, if_true, if_false] at hle ⊢ <;> omega
        · obtain ⟨q, hq, hsame⟩ := hrt.functions hother
          dsimp only
          rw [List.getElem?_set]
          split
          · rename_i hindex
            rw [← hindex, hr, Option.some.injEq] at hq
            exact ⟨_, rfl, by rw [← hsame, ← hq]⟩
          · exact ⟨q, hq, hsame⟩
      have hcreated : ∀ {next : PromiseRuntime}, OneWay [d.promise] next →
          OneWay [d.promise] { next with created := next.created + 1 } := fun hnext =>
        hnext.congr rfl (fun _ => rfl) rfl rfl (Nat.le_succ _)
      simp only [halready, Bool.false_eq_true, if_false]
      split
      · split
        · exact (hcreated htaken).fulfillOrRejectPromise _ _
        · refine ⟨fun other => ?_, htaken.functions, htaken.bounded⟩
          have hways := htaken.ways other
          refine Eq.trans ?_ hways
          simp only [PromiseRuntime.ways, PromiseRuntime.push, List.countP_cons, PromiseFrame.opens,
            List.count_singleton, List.count_nil]
          omega
      · exact htaken.fulfillOrRejectPromise _ _

theorem callFunction (hrt : OneWay [] rt) (func arg : JSValue) :
    OneWay [] (rt.callFunction func arg) := by
  unfold PromiseRuntime.callFunction
  split
  · split
    · exact hrt.resolveFunctionCall ‹_› arg
    · exact hrt.push fun _ => rfl
  · exact hrt

theorem finishReaction (hrt : OneWay [] rt) (resolvingFuncs : JSValue × JSValue)
    (completion : Completion) : OneWay [] (rt.finishReaction resolvingFuncs completion) := by
  cases completion <;> simp only [PromiseRuntime.finishReaction] <;> split <;>
    first | exact hrt | exact hrt.callFunction _ _

theorem newPromise (hrt : OneWay [] rt) : OneWay [] rt.newPromise := by
  have hfresh : rt.stateOf rt.created = none := by
    cases hpromise : rt.promises rt.created with
    | none => rw [stateOf, hpromise, Option.map_none]
    | some s => exact absurd (hrt.bounded hpromise) (Nat.lt_irrefl _)
  have hmade : OneWay [rt.created] { rt.setPromise rt.created
      { promiseState := .pending
        promiseReactions := fun _ => []
        isHandled := false
        promiseResult := .undefined } with created := rt.created + 1 } := by
    refine ⟨fun other => ?_, hrt.functions, fun {other s} hother => ?_⟩
    · have hways := hrt.ways other
      have hstate := congrFun (stateOf_setPromise rt rt.created
        { promiseState := .pending
          promiseReactions := fun _ => []
          isHandled := false
          promiseResult := .undefined }) other
      change rt.ways other + _ = if (rt.setPromise rt.created _).stateOf other = _ then 1 else 0
      simp only [hstate]
      by_cases heq : other = rt.created
      · subst other
        rw [hfresh] at hways
        rw [Function.update_self, List.count_singleton_self]
        simpa using hways
      · rw [Function.update_of_ne heq, List.count_eq_zero.mpr (by simpa using heq), ← hways,
          List.count_nil]
    · by_cases heq : other = rt.created
      · rw [heq]
        exact Nat.lt_succ_self _
      · exact Nat.lt_succ_of_lt (hrt.bounded ((Function.update_of_ne heq _ _).symm.trans hother))
  exact hmade.createResolvingFunctions.push fun _ => rfl

theorem executePendingJob (hrt : OneWay [] rt) : OneWay [] rt.executePendingJob := by
  rw [PromiseRuntime.executePendingJob]
  split
  · exact hrt
  · rename_i rd isReject arg rest hjobs
    have hrest : OneWay [] { rt with
        jobList := rest, ran := rt.ran ++ [⟨rd.registration, isReject, arg⟩] } :=
      hrt.congr rfl (fun other => by
        simp [PromiseRuntime.ways, hjobs, PromiseJob.opens]) rfl rfl (Nat.le_refl _)
    rw [promiseReactionJob]
    dsimp only
    split
    · exact hrest.finishReaction _ _
    · exact hrest.push fun _ => rfl
  · rename_i promise thenable then_ rest hjobs
    have hrest : OneWay [promise] { rt with jobList := rest } := by
      refine ⟨fun other => ?_, hrt.functions, hrt.bounded⟩
      refine Eq.trans ?_ (hrt.ways other)
      simp only [PromiseRuntime.ways, hjobs, List.countP_cons, PromiseJob.opens,
        List.count_singleton, List.count_nil]
      omega
    exact hrest.createResolvingFunctions.push fun _ => rfl

/-- The engine goes on where it has called a script. -/
theorem resume (hrt : OneWay [] rt) (hframes : rt.frames = frame :: frames)
    (completion : Completion) :
    OneWay [] ({ rt with frames := frames }.resume isFunction frame completion) := by
  have hrest : (∀ promise, frame.opens promise = false) →
      OneWay [] { rt with frames := frames } := fun hframe =>
    hrt.congr rfl (fun promise => by
      simp [PromiseRuntime.ways, hframes, hframe]) rfl rfl (Nat.le_refl _)
  have htaken : ∀ promise resolution, frame = .resolve promise resolution →
      OneWay [promise] { rt with frames := frames } := by
    rintro promise resolution rfl
    refine ⟨fun other => ?_, hrt.functions, hrt.bounded⟩
    refine Eq.trans ?_ (hrt.ways other)
    simp only [PromiseRuntime.ways, hframes, List.countP_cons, PromiseFrame.opens,
      List.count_singleton, List.count_nil]
    omega
  cases frame with
  | resolve promise resolution =>
      have hlost := htaken promise resolution rfl
      cases completion with
      | threw thrown => exact hlost.fulfillOrRejectPromise _ _
      | returned then_ =>
          simp only [PromiseRuntime.resume]
          split
          · refine ⟨fun other => ?_, hlost.functions, hlost.bounded⟩
            refine Eq.trans ?_ (hlost.ways other)
            simp only [PromiseRuntime.ways, enqueueJob, List.countP_append, List.countP_singleton,
              PromiseJob.opens, List.count_singleton, List.count_nil]
            omega
          · exact hlost.fulfillOrRejectPromise _ _
  | reject promise value => exact (hrest fun _ => rfl).flushReactions
  | subscribe promise resolvingFuncs onFulfilled onRejected =>
      exact (hrest fun _ => rfl).subscribe _ _ _ _
  | reaction resolvingFuncs => exact (hrest fun _ => rfl).finishReaction _ _
  | rejectOnThrow reject =>
      cases completion with
      | threw thrown => exact (hrest fun _ => rfl).callFunction _ _
      | returned value => exact hrest fun _ => rfl
  | discard => exact hrest fun _ => rfl

/-- Whatever scripts do, pending promises keep one way. -/
theorem step (hrt : OneWay [] rt) {action : PromiseAction}
    (hstep : PromiseRuntime.step isFunction rt action = .ok next) : OneWay [] next := by
  cases action with
  | setTracker installed =>
      cases hstep
      exact hrt.congr rfl (fun _ => rfl) rfl rfl (Nat.le_refl _)
  | newPromise =>
      cases hstep
      exact hrt.newPromise
  | call func arg =>
      cases hstep
      exact hrt.callFunction func arg
  | then_ promise onFulfilled onRejected resolvingFuncs =>
      cases hstep
      exact hrt.performPromiseThen _ _ _ _
  | executePendingJob =>
      cases hstep
      exact hrt.executePendingJob
  | complete completion =>
      simp only [PromiseRuntime.step] at hstep
      split at hstep
      · cases hstep
      · cases hstep
        exact hrt.resume ‹_› completion

end OneWay

/-- No promise goes, and no settled one changes its state or its result. -/
def Lasts (rt next : PromiseRuntime) : Prop :=
  ∀ promise s, rt.promises promise = some s → ∃ t, next.promises promise = some t ∧
    (s.promiseState ≠ .pending →
      t.promiseState = s.promiseState ∧ t.promiseResult = s.promiseResult)

namespace Lasts

theorem of_eq (hpromises : next.promises = rt.promises) : rt.Lasts next :=
  fun _ s hpromise => ⟨s, hpromises ▸ hpromise, fun _ => ⟨rfl, rfl⟩⟩

theorem trans {final : PromiseRuntime} (hfirst : rt.Lasts next) (hsecond : next.Lasts final) :
    rt.Lasts final := by
  intro promise s hpromise
  obtain ⟨t, ht, hlasts⟩ := hfirst promise s hpromise
  obtain ⟨u, hu, hlastsNext⟩ := hsecond promise t ht
  refine ⟨u, hu, fun hstate => ?_⟩
  obtain ⟨hsame, hresult⟩ := hlasts hstate
  obtain ⟨hsameNext, hresultNext⟩ := hlastsNext (hsame ▸ hstate)
  exact ⟨hsameNext.trans hsame, hresultNext.trans hresult⟩

theorem of_promises_eq {middle : PromiseRuntime} (hmiddle : middle.Lasts next)
    (hpromises : middle.promises = rt.promises) : rt.Lasts next := by
  unfold Lasts at hmiddle ⊢
  rwa [← hpromises]

/-- A promise is written that is new, pending, or written as it was. -/
theorem of_write (written : PromiseData)
    (hnext : next.promises = Function.update rt.promises promise (some written))
    (hwritten : ∀ s, rt.promises promise = some s → s.promiseState ≠ .pending →
      written.promiseState = s.promiseState ∧ written.promiseResult = s.promiseResult) :
    rt.Lasts next := by
  intro other s hother
  rw [hnext]
  by_cases heq : other = promise
  · subst other
    exact ⟨written, Function.update_self _ _ _, hwritten s hother⟩
  · exact ⟨s, (Function.update_of_ne heq _ _).trans hother, fun _ => ⟨rfl, rfl⟩⟩

theorem flushReactions (rt : PromiseRuntime) (promise : Ptr) (value : JSValue) (isReject : Bool) :
    rt.Lasts (rt.flushReactions promise value isReject) := by
  rw [PromiseRuntime.flushReactions]
  cases hpromise : rt.promises promise with
  | none => exact of_eq rfl
  | some s =>
      refine of_write { s with promiseReactions := fun _ => [] } rfl fun t ht _ => ?_
      rw [hpromise, Option.some.injEq] at ht
      subst t
      exact ⟨rfl, rfl⟩

theorem fulfillOrRejectPromise (rt : PromiseRuntime) (promise : Ptr) (value : JSValue)
    (isReject : Bool) : rt.Lasts (rt.fulfillOrRejectPromise promise value isReject) := by
  rw [PromiseRuntime.fulfillOrRejectPromise]
  cases hpromise : rt.promises promise with
  | none => exact of_eq rfl
  | some s =>
      dsimp only
      split
      · exact of_eq rfl
      · rename_i hpending
        have hset : rt.Lasts (rt.setPromise promise { s with
            promiseResult := value, promiseState := .settled isReject }) := by
          refine of_write _ rfl fun t ht hstate => ?_
          rw [hpromise, Option.some.injEq] at ht
          subst t
          exact absurd (not_not.mp hpending) hstate
        split
        · exact hset
        · exact hset.trans (flushReactions _ _ _ _)

theorem subscribe (rt : PromiseRuntime) (promise : Ptr) (resolvingFuncs : JSValue × JSValue)
    (onFulfilled onRejected : JSValue) :
    rt.Lasts (rt.subscribe promise resolvingFuncs onFulfilled onRejected) := by
  rw [PromiseRuntime.subscribe]
  cases hpromise : rt.promises promise with
  | none => exact of_eq rfl
  | some s =>
      dsimp only
      split <;>
        · refine of_write _ rfl fun t ht _ => ?_
          rw [hpromise, Option.some.injEq] at ht
          subst t
          exact ⟨rfl, rfl⟩

theorem resolveFunctionCall (rt : PromiseRuntime) (d : PromiseFunctionData) (resolution : JSValue) :
    rt.Lasts (rt.resolveFunctionCall d resolution) := by
  unfold PromiseRuntime.resolveFunctionCall
  split
  · exact of_eq rfl
  · split
    · exact of_eq rfl
    · dsimp only
      split
      · split
        · exact (fulfillOrRejectPromise _ _ _ _).of_promises_eq rfl
        · exact of_eq rfl
      · exact (fulfillOrRejectPromise _ _ _ _).of_promises_eq rfl

theorem callFunction (rt : PromiseRuntime) (func arg : JSValue) :
    rt.Lasts (rt.callFunction func arg) := by
  unfold PromiseRuntime.callFunction
  split
  · split
    · exact resolveFunctionCall _ _ _
    · exact of_eq rfl
  · exact of_eq rfl

theorem finishReaction (rt : PromiseRuntime) (resolvingFuncs : JSValue × JSValue)
    (completion : Completion) : rt.Lasts (rt.finishReaction resolvingFuncs completion) := by
  cases completion <;> simp only [PromiseRuntime.finishReaction] <;> split <;>
    first | exact of_eq rfl | exact callFunction _ _ _

theorem executePendingJob (rt : PromiseRuntime) : rt.Lasts rt.executePendingJob := by
  rw [PromiseRuntime.executePendingJob]
  split
  · exact of_eq rfl
  · rw [promiseReactionJob]
    dsimp only
    split
    · exact (finishReaction _ _ _).of_promises_eq rfl
    · exact of_eq rfl
  · exact of_eq rfl

theorem resume (rt : PromiseRuntime) (frame : PromiseFrame) (completion : Completion) :
    rt.Lasts (rt.resume isFunction frame completion) := by
  unfold PromiseRuntime.resume
  split
  · exact fulfillOrRejectPromise _ _ _ _
  · split
    · exact of_eq rfl
    · exact fulfillOrRejectPromise _ _ _ _
  · exact flushReactions _ _ _ _
  · exact subscribe _ _ _ _ _
  · exact finishReaction _ _ _
  · exact callFunction _ _ _
  · exact of_eq rfl
  · exact of_eq rfl

theorem step (hrt : OneWay [] rt) {action : PromiseAction}
    (hstep : PromiseRuntime.step isFunction rt action = .ok next) : rt.Lasts next := by
  cases action with
  | setTracker installed =>
      cases hstep
      exact of_eq rfl
  | newPromise =>
      cases hstep
      refine of_write _ rfl fun s hs _ => absurd (hrt.bounded hs) (Nat.lt_irrefl _)
  | call func arg =>
      cases hstep
      exact callFunction _ _ _
  | then_ promise onFulfilled onRejected resolvingFuncs =>
      cases hstep
      unfold performPromiseThen
      split
      · exact of_eq rfl
      · dsimp only
        split
        · exact of_eq rfl
        · exact subscribe _ _ _ _ _
  | executePendingJob =>
      cases hstep
      exact executePendingJob rt
  | complete completion =>
      simp only [PromiseRuntime.step] at hstep
      split at hstep
      · cases hstep
      · cases hstep
        exact (resume _ _ _).of_promises_eq rfl

end Lasts

theorem new_oneWay : OneWay [] new where
  ways promise := rfl
  functions hfunc := by cases hfunc
  bounded hpromise := by cases hpromise

theorem oneWay_of_run {actions : List PromiseAction}
    (hrun : (PromiseRuntime.step isFunction).run new actions = .ok rt) : OneWay [] rt :=
  StepFn.run_invariant_of_step _ (OneWay []) (fun _ _ _ hrt hstep => hrt.step hstep) new_oneWay hrun

/-- In every state that scripts can reach, a pending promise can be settled in exactly one
way and a settled one in none, so that the first call of a resolving function finds its
promise pending; and a settled promise stays as it is, whatever happens. -/
theorem settles_once {actions : List PromiseAction}
    (hrun : (PromiseRuntime.step isFunction).run new actions = .ok rt) :
    (∀ promise s, rt.promises promise = some s →
      rt.ways promise = if s.promiseState = .pending then 1 else 0) ∧
    (∀ func d r, rt.functions func = some d → rt.resolved[d.presolved]? = some r →
      r.alreadyResolved = false → rt.stateOf d.promise = some .pending) ∧
    ∀ more final, (PromiseRuntime.step isFunction).run rt more = .ok final →
      ∀ promise s, rt.promises promise = some s → s.promiseState ≠ .pending →
        ∃ t, final.promises promise = some t ∧ t.promiseState = s.promiseState ∧
          t.promiseResult = s.promiseResult := by
  have hrt := oneWay_of_run hrun
  refine ⟨fun promise s hpromise => ?_, fun func d r hfunc hr hopen => ?_,
    fun more final hmore promise s hpromise hstate => ?_⟩
  · have hways := hrt.ways promise
    rw [List.count_nil, Nat.add_zero, stateOf_eq hpromise] at hways
    simpa using hways
  · obtain ⟨q, hq, hsame⟩ := hrt.functions hfunc
    rw [hr, Option.some.injEq] at hq
    subst q
    have hpos : 0 < rt.resolved.countP (·.opens d.promise) :=
      List.countP_pos_iff.mpr ⟨r, List.mem_of_getElem? hr, by
        simp [PromiseFunctionDataResolved.opens, hopen, hsame]⟩
    have hways := hrt.ways d.promise
    rw [List.count_nil, Nat.add_zero] at hways
    by_contra hnot
    rw [if_neg hnot, PromiseRuntime.ways] at hways
    omega
  · have hlasts : OneWay [] final ∧ rt.Lasts final :=
      StepFn.run_invariant_of_step _ (fun state => OneWay [] state ∧ rt.Lasts state)
        (fun _ _ _ hstate hstep => ⟨hstate.1.step hstep, hstate.2.trans (.step hstate.1 hstep)⟩)
        ⟨hrt, .of_eq rfl⟩ hmore
    obtain ⟨t, ht, hsame⟩ := hlasts.2 promise s hpromise
    exact ⟨t, ht, hsame hstate⟩

/-- An executor resolves its promise, rejects it then, and throws at last. -/
def resolvedActions : List PromiseAction :=
  [.newPromise, .call (.ref .object 1) (.int 7), .call (.ref .object 2) .null,
    .complete (.threw .null)]

def resolvedState : PromiseRuntime :=
  match (step fun _ => false).run new resolvedActions with
  | .ok rt => rt
  | .error _ => new

theorem run_resolvedActions : (step fun _ => false).run new resolvedActions = .ok resolvedState :=
  rfl

theorem settles_once_resolved :
    (∀ promise s, resolvedState.promises promise = some s →
      resolvedState.ways promise = if s.promiseState = .pending then 1 else 0) ∧
    (∀ func d r, resolvedState.functions func = some d →
      resolvedState.resolved[d.presolved]? = some r → r.alreadyResolved = false →
      resolvedState.stateOf d.promise = some .pending) ∧
    ∀ more final, (step fun _ => false).run resolvedState more = .ok final →
      ∀ promise s, resolvedState.promises promise = some s → s.promiseState ≠ .pending →
        ∃ t, final.promises promise = some t ∧ t.promiseState = s.promiseState ∧
          t.promiseResult = s.promiseResult :=
  settles_once run_resolvedActions

example : (resolvedState.promises 0).map (fun s => (s.promiseState, s.promiseResult)) =
    some (.fulfilled, .int 7) := by decide

end PromiseRuntime

end QuickjsBackend
