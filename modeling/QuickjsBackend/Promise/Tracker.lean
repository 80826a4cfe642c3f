import QuickjsBackend.Promise.Reaction

/-! # What the rejection callback hears

The tracker of the engine is called when a promise is rejected to which no reaction was
added, and when the first is added afterwards. `Isolate::SetPromiseRejectCallback` hands
both on, so that an embedder that listens from the beginning knows which rejected promises
nobody has looked at.
-/

namespace QuickjsBackend

open Foundation

/-- `PromiseRejectEvent`. -/
inductive PromiseRejectEvent
  | kPromiseRejectWithNoHandler
  | kPromiseHandlerAddedAfterReject
  | kPromiseRejectAfterResolved
  | kPromiseResolveAfterResolved
  deriving DecidableEq, Repr

/-- `PromiseRejectMessage`. -/
structure PromiseRejectMessage where
  promise : Ptr
  event : PromiseRejectEvent
  value : JSValue
  deriving DecidableEq, Repr

/-- The function that `SetPromiseRejectCallback` installs, up to the call of the
embedder's. -/
def RejectionReport.message (report : RejectionReport) : PromiseRejectMessage where
  promise := report.promise
  event := if report.isHandled then .kPromiseHandlerAddedAfterReject
    else .kPromiseRejectWithNoHandler
  value := report.reason

/-- `perform_promise_then` waits for the tracker. -/
def PromiseFrame.subscribes (promise : Ptr) : PromiseFrame → Bool
  | .subscribe other _ _ _ => other == promise
  | _ => false

namespace PromiseRuntime

/-- What the callback was told about the promise. -/
def messagesOn (rt : PromiseRuntime) (promise : Ptr) : List PromiseRejectMessage :=
  (rt.reports.filter (·.promise == promise)).map RejectionReport.message

/-- How many reactions wait for the tracker to return before they are added. -/
def subscribing (rt : PromiseRuntime) (promise : Ptr) : Nat :=
  rt.frames.countP (·.subscribes promise)

/-- What the callback was told of a rejected promise: that it was rejected, and each time
a reaction was to be added while it was not handled. -/
def toldOf (promise : Ptr) (reason : JSValue) (later : Nat) : List PromiseRejectMessage :=
  ⟨promise, .kPromiseRejectWithNoHandler, reason⟩ ::
    List.replicate later ⟨promise, .kPromiseHandlerAddedAfterReject, reason⟩

structure Tracked (rt : PromiseRuntime) : Prop where
  installed : rt.tracker = true
  told : ∀ {promise s}, rt.promises promise = some s →
    rt.messagesOn promise = [] ∧ (s.promiseState = .rejected → s.isHandled = true) ∨
      s.promiseState = .rejected ∧ ∃ later,
        rt.messagesOn promise = toldOf promise s.promiseResult later ∧
        (s.isHandled = false → later = rt.subscribing promise) ∧
        (s.isHandled = true → 0 < later)
  handled : ∀ {promise s}, rt.promises promise = some s →
    (s.isHandled = true ↔ promise ∈ rt.registered)
  unknown : ∀ {promise}, rt.promises promise = none →
    rt.messagesOn promise = [] ∧ promise ∉ rt.registered
  waiting : ∀ {promise}, 0 < rt.subscribing promise →
    ∃ s, rt.promises promise = some s ∧ s.promiseState ≠ .pending

variable {rt next : PromiseRuntime} {promise other : Ptr} {s t : PromiseData} {value : JSValue}
  {isReject : Bool} {frame : PromiseFrame} {frames : List PromiseFrame}
  {isFunction : JSValue → Bool}

theorem messagesOn_append (rt : PromiseRuntime) (report : RejectionReport)
    (hreports : next.reports = rt.reports ++ [report]) : next.messagesOn other =
      rt.messagesOn other ++ if report.promise = other then [report.message] else [] := by
  rw [messagesOn, messagesOn, hreports, List.filter_append, List.map_append]
  congr 1
  by_cases heq : report.promise = other <;> simp [heq]

theorem messagesOn_congr (hreports : next.reports = rt.reports) :
    next.messagesOn other = rt.messagesOn other := by
  rw [messagesOn, messagesOn, hreports]

theorem toldOf_append (reason : JSValue) (later : Nat) :
    toldOf promise reason later ++ [⟨promise, .kPromiseHandlerAddedAfterReject, reason⟩] =
      toldOf promise reason (later + 1) := by
  rw [toldOf, toldOf, List.replicate_succ', List.cons_append]

theorem subscribing_push (hframe : ∀ other, frame.subscribes other = false) :
    (rt.push frame).subscribing promise = rt.subscribing promise := by
  simp [subscribing, push, hframe]

namespace Tracked

/-- What touches no promise, report or waiting reaction. -/
theorem congr (hrt : rt.Tracked) (hpromises : next.promises = rt.promises)
    (hreports : next.reports = rt.reports) (htracker : next.tracker = rt.tracker)
    (hregistered : next.registered = rt.registered)
    (hsubscribing : ∀ promise, next.subscribing promise = rt.subscribing promise) :
    next.Tracked where
  installed := htracker.trans hrt.installed
  told {promise s} hpromise := by
    rw [messagesOn_congr hreports, hsubscribing]
    exact hrt.told (hpromises ▸ hpromise)
  handled hpromise := by
    rw [hregistered]
    exact hrt.handled (hpromises ▸ hpromise)
  unknown hnone := by
    rw [messagesOn_congr hreports, hregistered]
    exact hrt.unknown (hpromises ▸ hnone)
  waiting hpos := by
    rw [hpromises]
    exact hrt.waiting (hsubscribing _ ▸ hpos)

theorem push (hrt : rt.Tracked) (hframe : ∀ other, frame.subscribes other = false) :
    (rt.push frame).Tracked :=
  hrt.congr rfl rfl rfl rfl fun _ => subscribing_push hframe

/-- One promise is written; of the others nothing changes. -/
theorem write (hrt : rt.Tracked) (promise : Ptr) (t : PromiseData)
    (hnext : next.promises = Function.update rt.promises promise (some t))
    (htracker : next.tracker = rt.tracker)
    (hothers : ∀ other ≠ promise, next.messagesOn other = rt.messagesOn other ∧
      next.subscribing other = rt.subscribing other ∧
      (other ∈ next.registered ↔ other ∈ rt.registered))
    (htold : next.messagesOn promise = [] ∧ (t.promiseState = .rejected → t.isHandled = true) ∨
      t.promiseState = .rejected ∧ ∃ later,
        next.messagesOn promise = toldOf promise t.promiseResult later ∧
        (t.isHandled = false → later = next.subscribing promise) ∧
        (t.isHandled = true → 0 < later))
    (hhandled : t.isHandled = true ↔ promise ∈ next.registered)
    (hwaiting : 0 < next.subscribing promise → t.promiseState ≠ .pending) : next.Tracked where
  installed := htracker.trans hrt.installed
  told {other s} hother := by
    rw [hnext] at hother
    by_cases heq : other = promise
    · subst other
      rw [Function.update_self, Option.some.injEq] at hother
      exact hother ▸ htold
    · rw [Function.update_of_ne heq] at hother
      rw [(hothers other heq).1, (hothers other heq).2.1]
      exact hrt.told hother
  handled {other s} hother := by
    rw [hnext] at hother
    by_cases heq : other = promise
    · subst other
      rw [Function.update_self, Option.some.injEq] at hother
      exact hother ▸ hhandled
    · rw [Function.update_of_ne heq] at hother
      exact (hrt.handled hother).trans (hothers other heq).2.2.symm
  unknown {other} hnone := by
    rw [hnext] at hnone
    by_cases heq : other = promise
    · rw [heq, Function.update_self] at hnone
      cases hnone
    · rw [Function.update_of_ne heq] at hnone
      rw [(hothers other heq).1, (hothers other heq).2.2]
      exact hrt.unknown hnone
  waiting {other} hpos := by
    rw [hnext]
    by_cases heq : other = promise
    · subst other
      exact ⟨t, Function.update_self _ _ _, hwaiting hpos⟩
    · rw [Function.update_of_ne heq]
      exact hrt.waiting ((hothers other heq).2.1 ▸ hpos)

theorem fulfillOrRejectPromise (hrt : rt.Tracked) (promise : Ptr) (value : JSValue)
    (isReject : Bool) : (rt.fulfillOrRejectPromise promise value isReject).Tracked := by
  rw [PromiseRuntime.fulfillOrRejectPromise]
  cases hpromise : rt.promises promise with
  | none => exact hrt
  | some s =>
      dsimp only
      split
      · exact hrt
      · rename_i hpending
        rw [ne_eq, not_not] at hpending
        have hhandled := hrt.handled hpromise
        have hsilent : rt.messagesOn promise = [] := by
          rcases hrt.told hpromise with ⟨hnone, -⟩ | ⟨hrejected, -⟩
          · exact hnone
          · rw [hpending] at hrejected
            cases hrejected
        have hidle : rt.subscribing promise = 0 := by
          refine Nat.eq_zero_of_not_pos fun hpos => ?_
          obtain ⟨found, hfound, hstate⟩ := hrt.waiting hpos
          rw [hpromise, Option.some.injEq] at hfound
          exact hstate (hfound ▸ hpending)
        split
        · rename_i hreport
          refine hrt.write promise { s with
              promiseResult := value
              promiseState := .settled isReject }
            rfl rfl (fun other hne => ⟨?_, subscribing_push fun _ => rfl, Iff.rfl⟩)
            (.inr ⟨?_, 0, ?_, ?_, ?_⟩) hhandled fun _ => settled_ne_pending _
          · apply (messagesOn_append rt ⟨promise, value, false⟩ rfl).trans
            rw [if_neg (Ne.symm hne), List.append_nil]
          · rw [hreport.1]
            rfl
          · apply (messagesOn_append rt ⟨promise, value, false⟩ rfl).trans
            rw [if_pos rfl, hsilent]
            rfl
          · exact fun _ => hidle.symm.trans (subscribing_push fun _ => rfl).symm
          · intro hdone
            rw [hreport.2.1] at hdone
            cases hdone
        · rename_i hquiet
          simp only [PromiseRuntime.flushReactions, setPromise, Function.update_self]
          refine hrt.write promise { s with
              promiseResult := value
              promiseState := .settled isReject
              promiseReactions := fun _ => [] }
            (Function.update_idem _ _ _) rfl (fun _ _ => ⟨rfl, rfl, Iff.rfl⟩) (.inl ⟨hsilent, ?_⟩)
            hhandled fun _ => settled_ne_pending _
          intro hrejected
          rw [← Bool.not_eq_false]
          intro hopen
          cases isReject
          · cases hrejected
          · exact hquiet ⟨rfl, hopen, hrt.installed⟩

/-- A reaction is added. When the promise was rejected and not handled, the callback has
been told. -/
theorem subscribe (hrt : rt.Tracked) (promise : Ptr) (resolvingFuncs : JSValue × JSValue)
    (onFulfilled onRejected : JSValue) {frames : List PromiseFrame}
    (hothers : ∀ other ≠ promise, frames.countP (·.subscribes other) = rt.subscribing other)
    (hless : frames.countP (·.subscribes promise) ≤ rt.subscribing promise)
    (hknown : ∃ s, rt.promises promise = some s)
    (hlater : ∀ s, rt.promises promise = some s → s.promiseState = .rejected →
      s.isHandled = false → 0 < rt.subscribing promise) :
    ({ rt with frames := frames }.subscribe promise resolvingFuncs onFulfilled
      onRejected).Tracked := by
  obtain ⟨s, hpromise⟩ := hknown
  have htold : ∀ reactions, rt.messagesOn promise = [] ∧
        (s.promiseState = .rejected → ({ s with
          promiseReactions := reactions, isHandled := true } : PromiseData).isHandled = true) ∨
      s.promiseState = .rejected ∧ ∃ later,
        rt.messagesOn promise = toldOf promise s.promiseResult later ∧
        (({ s with promiseReactions := reactions, isHandled := true } : PromiseData).isHandled =
          false → later = frames.countP (·.subscribes promise)) ∧
        (({ s with promiseReactions := reactions, isHandled := true } : PromiseData).isHandled =
          true → 0 < later) := by
    intro reactions
    rcases hrt.told hpromise with ⟨hnone, -⟩ | ⟨hrejected, later, hmessages, hopen, hdone⟩
    · exact .inl ⟨hnone, fun _ => rfl⟩
    · refine .inr ⟨hrejected, later, hmessages, fun hopened => Bool.noConfusion hopened,
        fun _ => ?_⟩
      cases hhandled : s.isHandled with
      | false =>
          rw [hopen hhandled]
          exact hlater s hpromise hrejected hhandled
      | true => exact hdone hhandled
  have hwaiting : 0 < frames.countP (·.subscribes promise) → s.promiseState ≠ .pending := by
    intro hpos
    obtain ⟨found, hfound, hstate⟩ := hrt.waiting (Nat.lt_of_lt_of_le hpos hless)
    rw [hpromise, Option.some.injEq] at hfound
    exact hfound ▸ hstate
  simp only [PromiseRuntime.subscribe, hpromise]
  have hadded : ∀ other ≠ promise, other ∈ rt.registered ++ [promise] ↔ other ∈ rt.registered :=
    fun other hne => by simp [hne]
  have hmem : promise ∈ rt.registered ++ [promise] :=
    List.mem_append_right _ (List.mem_singleton_self promise)
  split <;>
    exact hrt.write promise _ rfl rfl
      (fun other hne => ⟨rfl, hothers other hne, hadded other hne⟩) (htold _)
      (iff_of_true rfl hmem) hwaiting

/-- What touches no promise and no frame, reports nothing and adds no reaction. -/
theorem keep (hrt : rt.Tracked) (hpromises : next.promises = rt.promises)
    (hreports : next.reports = rt.reports) (htracker : next.tracker = rt.tracker)
    (hregistered : next.registered = rt.registered) (hframes : next.frames = rt.frames) :
    next.Tracked :=
  hrt.congr hpromises hreports htracker hregistered fun _ => by
    rw [subscribing, subscribing, hframes]

theorem performPromiseThen (hrt : rt.Tracked) (promise : Ptr) (onFulfilled onRejected : JSValue)
    (resolvingFuncs : JSValue × JSValue) :
    (rt.performPromiseThen isFunction promise onFulfilled onRejected resolvingFuncs).Tracked := by
  rw [PromiseRuntime.performPromiseThen]
  cases hpromise : rt.promises promise with
  | none => exact hrt
  | some s =>
      dsimp only
      split
      · rename_i hreport
        refine hrt.write promise s ?_ rfl (fun other hne => ⟨?_, ?_, Iff.rfl⟩) (.inr ?_)
          (hrt.handled hpromise) ?_
        · rw [← hpromise, Function.update_eq_self]
          rfl
        · apply (messagesOn_append rt ⟨promise, s.promiseResult, true⟩ rfl).trans
          rw [if_neg (Ne.symm hne), List.append_nil]
        · simp [subscribing, PromiseRuntime.push, PromiseFrame.subscribes, Ne.symm hne]
        · rcases hrt.told hpromise with ⟨-, hhandled⟩ | ⟨-, later, hmessages, hopen, -⟩
          · rw [hhandled hreport.1] at hreport
            cases hreport.2.1
          · refine ⟨hreport.1, later + 1, ?_, fun hhandled => ?_, fun _ => Nat.succ_pos later⟩
            · apply (messagesOn_append rt ⟨promise, s.promiseResult, true⟩ rfl).trans
              rw [if_pos rfl, hmessages]
              exact toldOf_append s.promiseResult later
            · rw [hopen hhandled]
              simp [subscribing, PromiseRuntime.push, PromiseFrame.subscribes]
        · intro _ hpending
          rw [hreport.1] at hpending
          cases hpending
      · rename_i hquiet
        refine hrt.subscribe promise resolvingFuncs _ _ (fun _ _ => rfl) (Nat.le_refl _)
          ⟨s, hpromise⟩ fun found hfound hrejected hhandled => ?_
        rw [hpromise, Option.some.injEq] at hfound
        subst found
        exact absurd ⟨hrejected, hhandled, hrt.installed⟩ hquiet

theorem resolveFunctionCall (hrt : rt.Tracked) (d : PromiseFunctionData) (resolution : JSValue) :
    (rt.resolveFunctionCall d resolution).Tracked := by
  unfold PromiseRuntime.resolveFunctionCall
  split
  · exact hrt
  · split
    · exact hrt
    · dsimp only
      split
      · split
        · apply Tracked.fulfillOrRejectPromise
          exact hrt.keep rfl rfl rfl rfl rfl
        · refine Tracked.push ?_ fun _ => rfl
          exact hrt.keep rfl rfl rfl rfl rfl
      · apply Tracked.fulfillOrRejectPromise
        exact hrt.keep rfl rfl rfl rfl rfl

theorem callFunction (hrt : rt.Tracked) (func arg : JSValue) :
    (rt.callFunction func arg).Tracked := by
  unfold PromiseRuntime.callFunction
  split
  · split
    · exact hrt.resolveFunctionCall _ _
    · exact hrt.push fun _ => rfl
  · exact hrt

theorem finishReaction (hrt : rt.Tracked) (resolvingFuncs : JSValue × JSValue)
    (completion : Completion) : (rt.finishReaction resolvingFuncs completion).Tracked := by
  cases completion <;> simp only [PromiseRuntime.finishReaction] <;> split <;>
    first | exact hrt | exact hrt.callFunction _ _

/-- The callback has heard nothing of a promise that is new. -/
theorem newPromise (hrt : rt.Tracked) (hfresh : rt.promises rt.created = none) :
    rt.newPromise.Tracked := by
  obtain ⟨hsilent, hnone⟩ := hrt.unknown hfresh
  refine Tracked.push (hrt.write rt.created
    { promiseState := .pending
      promiseReactions := fun _ => []
      isHandled := false
      promiseResult := .undefined } rfl rfl (fun _ _ => ⟨rfl, rfl, Iff.rfl⟩)
    (.inl ⟨hsilent, fun hrejected => by cases hrejected⟩)
    (iff_of_false Bool.false_ne_true hnone) fun hpos => ?_) fun _ => rfl
  obtain ⟨s, hs, -⟩ := hrt.waiting hpos
  rw [hfresh] at hs
  cases hs

theorem executePendingJob (hrt : rt.Tracked) : rt.executePendingJob.Tracked := by
  rw [PromiseRuntime.executePendingJob]
  split
  · exact hrt
  · rw [promiseReactionJob]
    dsimp only
    split
    · apply Tracked.finishReaction
      exact hrt.keep rfl rfl rfl rfl rfl
    · refine Tracked.push ?_ fun _ => rfl
      exact hrt.keep rfl rfl rfl rfl rfl
  · refine Tracked.push ?_ fun _ => rfl
    exact hrt.keep rfl rfl rfl rfl rfl

theorem flushReactions (hrt : rt.Tracked) (promise : Ptr) (value : JSValue) (isReject : Bool) :
    (rt.flushReactions promise value isReject).Tracked := by
  rw [PromiseRuntime.flushReactions]
  cases hpromise : rt.promises promise with
  | none => exact hrt
  | some s =>
      have htold := hrt.told hpromise
      have hhandled := hrt.handled hpromise
      refine hrt.write promise { s with promiseReactions := fun _ => [] } rfl rfl
        (fun _ _ => ⟨rfl, rfl, Iff.rfl⟩) htold hhandled fun hpos => ?_
      obtain ⟨found, hfound, hstate⟩ := hrt.waiting hpos
      rw [hpromise, Option.some.injEq] at hfound
      exact hfound ▸ hstate

/-- The engine goes on where it has called a script; a reaction that has waited for the
tracker is added. -/
theorem resume (hrt : rt.Tracked) (hframes : rt.frames = frame :: frames)
    (completion : Completion) :
    ({ rt with frames := frames }.resume isFunction frame completion).Tracked := by
  have hrest : (∀ other, frame.subscribes other = false) →
      Tracked { rt with frames := frames } := fun hframe =>
    hrt.congr rfl rfl rfl rfl fun _ => by simp [subscribing, hframes, hframe]
  cases frame with
  | resolve promise resolution =>
      have hpopped := hrest fun _ => rfl
      cases completion with
      | threw thrown => exact hpopped.fulfillOrRejectPromise _ _ _
      | returned then_ =>
          simp only [PromiseRuntime.resume]
          split
          · exact hpopped.keep rfl rfl rfl rfl rfl
          · exact hpopped.fulfillOrRejectPromise _ _ _
  | reject promise value => exact (hrest fun _ => rfl).flushReactions _ _ _
  | subscribe promise resolvingFuncs onFulfilled onRejected =>
      have hpos : 0 < rt.subscribing promise := by
        simp [subscribing, hframes, PromiseFrame.subscribes]
      have hless : frames.countP (·.subscribes promise) ≤ rt.subscribing promise := by
        rw [subscribing, hframes]
        exact (List.sublist_cons_self _ _).countP_le
      obtain ⟨s, hpromise, -⟩ := hrt.waiting hpos
      exact hrt.subscribe promise resolvingFuncs onFulfilled onRejected
        (fun other hne => by simp [subscribing, hframes, PromiseFrame.subscribes, Ne.symm hne])
        hless ⟨s, hpromise⟩ fun _ _ _ _ => hpos
  | reaction resolvingFuncs => exact (hrest fun _ => rfl).finishReaction _ _
  | rejectOnThrow reject =>
      cases completion with
      | threw thrown => exact (hrest fun _ => rfl).callFunction _ _
      | returned value => exact hrest fun _ => rfl
  | discard => exact hrest fun _ => rfl

theorem step (hrt : rt.Tracked) (hfresh : rt.promises rt.created = none) {action : PromiseAction}
    (hkept : ∀ installed, action = .setTracker installed → installed = true)
    (hstep : PromiseRuntime.step isFunction rt action = .ok next) : next.Tracked := by
  cases action with
  | setTracker installed =>
      cases hstep
      exact hrt.congr rfl rfl ((hkept installed rfl).trans hrt.installed.symm) rfl fun _ => rfl
  | newPromise =>
      cases hstep
      exact hrt.newPromise hfresh
  | call func arg =>
      cases hstep
      exact hrt.callFunction func arg
  | then_ promise onFulfilled onRejected resolvingFuncs =>
      cases hstep
      exact hrt.performPromiseThen _ _ _ _
  | executePendingJob =>
      cases hstep
      exact hrt.executePendingJob
  | complete completion =>
      simp only [PromiseRuntime.step] at hstep
      split at hstep
      · cases hstep
      · cases hstep
        exact hrt.resume ‹_› completion

end Tracked

theorem tracked_of_run {actions : List PromiseAction}
    (hkept : ∀ installed, .setTracker installed ∈ actions → installed = true)
    (hrun : (PromiseRuntime.step isFunction).run new (.setTracker true :: actions) = .ok rt) :
    rt.Tracked := by
  have hnew : OneWay [] { new with tracker := true } ∧ Tracked { new with tracker := true } :=
    ⟨new_oneWay.congr rfl (fun _ => rfl) rfl rfl (Nat.le_refl _), {
      installed := rfl
      told := fun hpromise => by cases hpromise
      handled := fun hpromise => by cases hpromise
      unknown := fun _ => ⟨rfl, List.not_mem_nil⟩
      waiting := fun hpos => by cases hpos }⟩
  exact ((PromiseRuntime.step isFunction).run_invariant
    (fun _ action => ∀ installed, action = .setTracker installed → installed = true)
    (fun state => OneWay [] state ∧ state.Tracked)
    (fun _ _ _ hstate hguard hstep =>
      ⟨hstate.1.step hstep, hstate.2.step hstate.1.fresh hguard hstep⟩) hnew
    (StepFn.always_of_mem _ fun action hmem installed heq => hkept installed (heq ▸ hmem)) hrun).2

/-- An embedder that has set its callback before all else, and has not taken it away, is
told of a promise only when it is rejected: that it was, once and first, and then that
reactions were to be added. When no reaction to it waits for the callback, it was told the
first and nothing else just of the rejected promises to which none was ever added. -/
theorem reports_rejections {actions : List PromiseAction}
    (hkept : ∀ installed, .setTracker installed ∈ actions → installed = true)
    (hrun : (PromiseRuntime.step isFunction).run new (.setTracker true :: actions) = .ok rt)
    (hpromise : rt.promises promise = some s) :
    (rt.messagesOn promise = [] ∨ s.promiseState = .rejected ∧
      ∃ later, rt.messagesOn promise = toldOf promise s.promiseResult later) ∧
    (rt.subscribing promise = 0 →
      (rt.messagesOn promise = [⟨promise, .kPromiseRejectWithNoHandler, s.promiseResult⟩] ↔
        s.promiseState = .rejected ∧ promise ∉ rt.registered)) := by
  have hrt := tracked_of_run hkept hrun
  have hhandled := hrt.handled hpromise
  rcases hrt.told hpromise with
    ⟨hnone, hseen⟩ | ⟨hrejected, later, hmessages, hopen, hdone⟩
  · refine ⟨.inl hnone, fun _ => ⟨fun hone => ?_, fun ⟨hrejected, hnot⟩ => ?_⟩⟩
    · rw [hnone] at hone
      cases hone
    · exact absurd (hhandled.mp (hseen hrejected)) hnot
  · refine ⟨.inr ⟨hrejected, later, hmessages⟩, fun hidle => ⟨fun hone => ?_, fun ⟨_, hnot⟩ => ?_⟩⟩
    · refine ⟨hrejected, fun hmem => ?_⟩
      have hlength : later + 1 = 1 := by
        simpa [toldOf] using congrArg List.length (hmessages.symm.trans hone)
      exact absurd (hdone (hhandled.mpr hmem)) (by omega)
    · have hfalse : s.isHandled = false := by
        rw [← Bool.not_eq_true]
        exact fun htrue => hnot (hhandled.mp htrue)
      rw [hmessages, hopen hfalse, hidle]
      rfl

/-- An executor rejects its promise; nobody adds a reaction. -/
def rejectedActions : List PromiseAction :=
  [.newPromise, .call (.ref .object 2) (.int 7), .complete (.returned .undefined),
    .complete (.returned .undefined)]

def rejectedState : PromiseRuntime :=
  match (step fun _ => false).run new (.setTracker true :: rejectedActions) with
  | .ok rt => rt
  | .error _ => new

theorem run_rejectedActions : (step fun _ => false).run new
    (.setTracker true :: rejectedActions) = .ok rejectedState :=
  rfl

def rejectedPromise : PromiseData where
  promiseState := .rejected
  promiseReactions _ := []
  isHandled := false
  promiseResult := .int 7

theorem reports_rejections_rejected : (rejectedState.messagesOn 0 = [] ∨
      rejectedPromise.promiseState = .rejected ∧ ∃ later,
        rejectedState.messagesOn 0 = toldOf 0 rejectedPromise.promiseResult later) ∧
    (rejectedState.subscribing 0 = 0 →
      (rejectedState.messagesOn 0 =
          [⟨0, .kPromiseRejectWithNoHandler, rejectedPromise.promiseResult⟩] ↔
        rejectedPromise.promiseState = .rejected ∧ 0 ∉ rejectedState.registered)) :=
  reports_rejections (by simp [rejectedActions]) run_rejectedActions rfl

-- a reaction that comes late is told of, and the next one is not
example : ((step fun _ => false).run rejectedState
    [.then_ 0 .undefined .undefined (.undefined, .undefined), .complete (.returned .undefined),
      .then_ 0 .undefined .undefined (.undefined, .undefined)]).map (·.messagesOn 0) =
    .ok [⟨0, .kPromiseRejectWithNoHandler, .int 7⟩,
      ⟨0, .kPromiseHandlerAddedAfterReject, .int 7⟩] := by decide

end PromiseRuntime

end QuickjsBackend
