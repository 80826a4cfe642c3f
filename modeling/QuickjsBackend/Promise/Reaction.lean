import QuickjsBackend.Promise.Settlement

/-! # Reactions run once

A reaction waits with its promise, then in the queue of jobs, and then it has run. For
each promise those in the queue and those that ran are, in order, the ones that were added
to it once it is settled, and none before.
-/

namespace QuickjsBackend

open Foundation

/-- What a reaction job is run with. -/
def PromiseJob.delivery : PromiseJob → Option RanReaction
  | .reaction rd isReject arg => some ⟨rd.registration, isReject, arg⟩
  | .resolveThenable _ _ _ => none

namespace PromiseRuntime

/-- The reactions that ran and those that are about to. -/
def deliveries (rt : PromiseRuntime) : List RanReaction :=
  rt.ran ++ rt.jobList.filterMap PromiseJob.delivery

/-- The reaction was added to the promise. -/
def owns (rt : PromiseRuntime) (promise : Ptr) (r : RanReaction) : Bool :=
  rt.registered[r.registration]? == some promise

/-- The reactions that were added to the promise, in order. -/
def registrationsOn (rt : PromiseRuntime) (promise : Ptr) : List Nat :=
  (List.range rt.registered.length).filter fun n => rt.registered[n]? == some promise

structure Delivering (rt : PromiseRuntime) : Prop where
  outcome : ∀ r ∈ rt.deliveries, ∃ promise s, rt.registered[r.registration]? = some promise ∧
    rt.promises promise = some s ∧ s.promiseState = .settled r.isReject ∧ s.promiseResult = r.arg
  complete : ∀ {promise s}, rt.promises promise = some s → ∀ isReject,
    (rt.deliveries.filter (rt.owns promise)).map (·.registration) ++
      (s.promiseReactions isReject).map (·.registration) = rt.registrationsOn promise
  emptied : ∀ {promise s}, rt.promises promise = some s → s.promiseState ≠ .pending →
    ∀ isReject, s.promiseReactions isReject = []
  unhandled : ∀ {promise s}, rt.promises promise = some s → s.isHandled = false →
    ∀ isReject, s.promiseReactions isReject = []
  known : ∀ promise ∈ rt.registered, ∃ s, rt.promises promise = some s
  reporting : ∀ {promise value}, .reject promise value ∈ rt.frames →
    ∃ s, rt.promises promise = some s ∧ s.promiseState ≠ .pending

variable {rt next : PromiseRuntime} {promise other : Ptr} {s t : PromiseData} {value : JSValue}
  {isReject : Bool} {frame : PromiseFrame} {frames : List PromiseFrame}
  {isFunction : JSValue → Bool}

theorem settled_ne_pending (isReject : Bool) :
    PromiseStateEnum.settled isReject ≠ .pending := by
  cases isReject <;> decide

theorem eq_settled {state : PromiseStateEnum} (hstate : state ≠ .pending) :
    state = .settled (decide (state = .rejected)) := by
  cases state
  · exact absurd rfl hstate
  · rfl
  · rfl

namespace Delivering

/-- Promises, reactions and what was delivered stay. -/
theorem congr (hrt : rt.Delivering) (hpromises : next.promises = rt.promises)
    (hdeliveries : next.deliveries = rt.deliveries) (hregistered : next.registered = rt.registered)
    (hframes : ∀ promise value, .reject promise value ∈ next.frames →
      .reject promise value ∈ rt.frames) : next.Delivering where
  outcome := by
    rw [hdeliveries, hregistered, hpromises]
    exact hrt.outcome
  complete hpromise isReject := by
    rw [hpromises] at hpromise
    rw [hdeliveries, registrationsOn, hregistered]
    have howns : next.owns = rt.owns := by
      funext promise r
      rw [owns, owns, hregistered]
    rw [howns]
    exact hrt.complete hpromise isReject
  emptied hpromise := hrt.emptied (hpromises ▸ hpromise)
  unhandled hpromise := hrt.unhandled (hpromises ▸ hpromise)
  known promise hmem := by
    rw [hpromises]
    exact hrt.known promise (hregistered ▸ hmem)
  reporting hmem := by
    rw [hpromises]
    exact hrt.reporting (hframes _ _ hmem)

/-- A pending promise has had no reaction. -/
theorem none_of_pending (hrt : rt.Delivering) (hpromise : rt.promises promise = some s)
    (hpending : s.promiseState = .pending) : rt.deliveries.filter (rt.owns promise) = [] := by
  refine List.filter_eq_nil_iff.mpr fun r hmem howns => ?_
  obtain ⟨owner, found, howner, hfound, hstate, -⟩ := hrt.outcome r hmem
  rw [owns, howner, beq_iff_eq, Option.some.injEq] at howns
  subst owner
  rw [hpromise, Option.some.injEq] at hfound
  subst found
  rw [hpending] at hstate
  exact settled_ne_pending _ hstate.symm

theorem push (hrt : rt.Delivering) (hframe : ∀ promise value, frame ≠ .reject promise value) :
    (rt.push frame).Delivering :=
  hrt.congr rfl rfl rfl fun promise value hmem =>
    (List.mem_cons.mp hmem).resolve_left fun heq => hframe promise value heq.symm

/-- The lists of a promise that is settled are empty already. -/
theorem flushReactions (hrt : rt.Delivering) (hpromise : rt.promises promise = some s)
    (hstate : s.promiseState ≠ .pending) (value : JSValue) (isReject : Bool) :
    rt.flushReactions promise value isReject = rt := by
  have hempty : s.promiseReactions = fun _ => [] :=
    funext fun side => hrt.emptied hpromise hstate side
  have hself : ({ s with promiseReactions := fun _ => [] } : PromiseData) = s := by
    rw [← hempty]
  simp only [PromiseRuntime.flushReactions, hpromise, hself, hempty, List.map_nil, List.append_nil,
    setPromise]
  rw [← hpromise, Function.update_eq_self]

/-- What is delivered is delivered for one promise. -/
theorem owns_iff {r : RanReaction} {owner : Ptr}
    (howner : rt.registered[r.registration]? = some owner) :
    rt.owns other r = true ↔ other = owner := by
  rw [owns, howner, beq_iff_eq, Option.some.injEq]
  exact eq_comm

/-- A pending promise is settled, and its reactions of one kind are delivered. -/
theorem settle (t : PromiseData) (isReject : Bool) (hrt : rt.Delivering)
    (hpromise : rt.promises promise = some s) (hpending : s.promiseState = .pending)
    (hstate : t.promiseState = .settled isReject)
    (hresult : t.promiseResult = value) (hempty : ∀ isReject, t.promiseReactions isReject = [])
    (hnext : next.promises = Function.update rt.promises promise (some t))
    (hdeliveries : next.deliveries = rt.deliveries ++
      (s.promiseReactions isReject).map fun rd => ⟨rd.registration, isReject, value⟩)
    (hregistered : next.registered = rt.registered)
    (hframes : ∀ other value, .reject other value ∈ next.frames →
      other = promise ∨ .reject other value ∈ rt.frames) : next.Delivering := by
  have howns : next.owns = rt.owns := by
    funext promise r
    rw [owns, owns, hregistered]
  have hnone := hrt.none_of_pending hpromise hpending
  have hnew : ∀ r ∈ (s.promiseReactions isReject).map
      fun rd => (⟨rd.registration, isReject, value⟩ : RanReaction),
      rt.registered[r.registration]? = some promise ∧ r.isReject = isReject ∧ r.arg = value := by
    intro r hmem
    obtain ⟨rd, hrd, rfl⟩ := List.mem_map.mp hmem
    have hcomplete := hrt.complete hpromise isReject
    rw [hnone, List.map_nil, List.nil_append] at hcomplete
    have hin : rd.registration ∈ rt.registrationsOn promise :=
      hcomplete ▸ List.mem_map_of_mem hrd
    exact ⟨by simpa using (List.mem_filter.mp hin).2, rfl, rfl⟩
  constructor
  · intro r hmem
    rw [hdeliveries, List.mem_append] at hmem
    rw [hregistered, hnext]
    rcases hmem with hmem | hmem
    · obtain ⟨owner, found, howner, hfound, hrest⟩ := hrt.outcome r hmem
      have hne : owner ≠ promise := by
        rintro rfl
        have hfilter := List.mem_filter.mpr ⟨hmem, (owns_iff howner).mpr rfl⟩
        rw [hnone] at hfilter
        cases hfilter
      exact ⟨owner, found, howner, by rw [Function.update_of_ne hne, hfound], hrest⟩
    · obtain ⟨howner, hside, harg⟩ := hnew r hmem
      exact ⟨promise, t, howner, Function.update_self _ _ _, hside ▸ hstate, harg ▸ hresult⟩
  · intro other found hfound side
    rw [hnext] at hfound
    rw [hdeliveries, howns, registrationsOn, hregistered, List.filter_append]
    by_cases heq : other = promise
    · subst other
      rw [Function.update_self, Option.some.injEq] at hfound
      have hcomplete := hrt.complete hpromise isReject
      rw [hnone, List.map_nil, List.nil_append] at hcomplete
      rw [← hfound, hempty, List.map_nil, List.append_nil, hnone, List.nil_append,
        List.filter_eq_self.mpr fun r hmem => (owns_iff (hnew r hmem).1).mpr rfl, List.map_map]
      exact hcomplete
    · rw [Function.update_of_ne heq] at hfound
      rw [List.filter_eq_nil_iff.mpr fun r hmem howner =>
          heq ((owns_iff (hnew r hmem).1).mp howner),
        List.append_nil]
      exact hrt.complete hfound side
  · intro other found hfound hfoundState side
    rw [hnext] at hfound
    by_cases heq : other = promise
    · rw [heq, Function.update_self, Option.some.injEq] at hfound
      rw [← hfound, hempty]
    · rw [Function.update_of_ne heq] at hfound
      exact hrt.emptied hfound hfoundState side
  · intro other found hfound hhandled side
    rw [hnext] at hfound
    by_cases heq : other = promise
    · rw [heq, Function.update_self, Option.some.injEq] at hfound
      rw [← hfound, hempty]
    · rw [Function.update_of_ne heq] at hfound
      exact hrt.unhandled hfound hhandled side
  · intro other hmem
    rw [hregistered] at hmem
    rw [hnext]
    by_cases heq : other = promise
    · exact ⟨t, by rw [heq, Function.update_self]⟩
    · rw [Function.update_of_ne heq]
      exact hrt.known other hmem
  · intro other value hmem
    rw [hnext]
    by_cases heq : other = promise
    · exact ⟨t, by rw [heq, Function.update_self], by rw [hstate]; exact settled_ne_pending _⟩
    · rw [Function.update_of_ne heq]
      exact hrt.reporting ((hframes other value hmem).resolve_left heq)

theorem fulfillOrRejectPromise (hrt : rt.Delivering) (promise : Ptr) (value : JSValue)
    (isReject : Bool) : (rt.fulfillOrRejectPromise promise value isReject).Delivering := by
  rw [PromiseRuntime.fulfillOrRejectPromise]
  cases hpromise : rt.promises promise with
  | none => exact hrt
  | some s =>
      dsimp only
      split
      · exact hrt
      · rename_i hpending
        rw [ne_eq, not_not] at hpending
        split
        · rename_i hreport
          have hempty := hrt.unhandled hpromise hreport.2.1
          refine hrt.settle { s with promiseResult := value, promiseState := .settled isReject }
            isReject hpromise hpending rfl rfl hempty rfl ?_ rfl fun other value' hmem => ?_
          · rw [hempty isReject]
            exact (List.append_nil _).symm
          · refine (List.mem_cons.mp hmem).imp_left fun heq => ?_
            exact (PromiseFrame.reject.inj heq).1
        · simp only [PromiseRuntime.flushReactions, setPromise, Function.update_self]
          refine hrt.settle { s with
              promiseResult := value
              promiseState := .settled isReject
              promiseReactions := fun _ => [] }
            isReject hpromise hpending rfl rfl (fun _ => rfl) (Function.update_idem _ _ _) ?_ rfl
            fun other value' hmem => .inr hmem
          simp [deliveries, PromiseJob.delivery, Function.comp_def]

theorem registrationsOn_append (hregistered : next.registered = rt.registered ++ [promise]) :
    next.registrationsOn other =
      rt.registrationsOn other ++ if other = promise then [rt.registered.length] else [] := by
  rw [registrationsOn, hregistered, List.length_append, List.length_singleton, List.range_succ,
    List.filter_append]
  congr 1
  · refine List.filter_congr fun n hn => ?_
    rw [List.getElem?_append_left (List.mem_range.mp hn)]
  · by_cases heq : other = promise
    · simp [heq]
    · simp [heq, Ne.symm heq]

/-- A reaction is added and perhaps delivered at once. -/
theorem extend (t : PromiseData) (added : List RanReaction) (hrt : rt.Delivering)
    (hpromise : rt.promises promise = some s)
    (hsame : t.promiseState = s.promiseState ∧ t.promiseResult = s.promiseResult)
    (hhandled : t.isHandled = true)
    (hempty : t.promiseState ≠ .pending → ∀ isReject, t.promiseReactions isReject = [])
    (hadded : ∀ r ∈ added, r.registration = rt.registered.length ∧
      t.promiseState = .settled r.isReject ∧ t.promiseResult = r.arg)
    (hcomplete : ∀ isReject, added.map (·.registration) ++
        (t.promiseReactions isReject).map (·.registration) =
      (s.promiseReactions isReject).map (·.registration) ++ [rt.registered.length])
    (hnext : next.promises = Function.update rt.promises promise (some t))
    (hdeliveries : next.deliveries = rt.deliveries ++ added)
    (hregistered : next.registered = rt.registered ++ [promise])
    (hframes : next.frames = rt.frames) : next.Delivering := by
  have hbefore : ∀ {n : Nat} {owner}, rt.registered[n]? = some owner →
      next.registered[n]? = some owner := by
    intro n owner hn
    rw [hregistered, List.getElem?_append_left (List.getElem?_eq_some_iff.mp hn).1, hn]
  have hlast : ∀ r ∈ added, next.registered[r.registration]? = some promise := by
    intro r hmem
    rw [hregistered, (hadded r hmem).1, List.getElem?_concat_length]
  have howns : ∀ other, rt.deliveries.filter (next.owns other) =
      rt.deliveries.filter (rt.owns other) := by
    intro other
    refine List.filter_congr fun r hmem => ?_
    obtain ⟨owner, _, howner, _⟩ := hrt.outcome r hmem
    rw [owns, owns, howner, hbefore howner]
  constructor
  · intro r hmem
    rw [hdeliveries, List.mem_append] at hmem
    rw [hnext]
    rcases hmem with hmem | hmem
    · obtain ⟨owner, found, howner, hfound, hstate, hresult⟩ := hrt.outcome r hmem
      by_cases heq : owner = promise
      · subst owner
        rw [hpromise, Option.some.injEq] at hfound
        subst found
        exact ⟨promise, t, hbefore howner, Function.update_self _ _ _, hsame.1.trans hstate,
          hsame.2.trans hresult⟩
      · exact ⟨owner, found, hbefore howner, by rw [Function.update_of_ne heq, hfound], hstate,
          hresult⟩
    · exact ⟨promise, t, hlast r hmem, Function.update_self _ _ _, (hadded r hmem).2⟩
  · intro other found hfound isReject
    rw [hnext] at hfound
    rw [hdeliveries, List.filter_append, howns, registrationsOn_append hregistered]
    by_cases heq : other = promise
    · subst other
      rw [Function.update_self, Option.some.injEq] at hfound
      rw [← hfound, if_pos rfl,
        List.filter_eq_self.mpr fun r hmem => (owns_iff (hlast r hmem)).mpr rfl, List.map_append,
        List.append_assoc, hcomplete, ← List.append_assoc, hrt.complete hpromise isReject]
    · rw [Function.update_of_ne heq] at hfound
      rw [if_neg heq, List.append_nil,
        List.filter_eq_nil_iff.mpr fun r hmem howner => heq ((owns_iff (hlast r hmem)).mp howner),
        List.append_nil, hrt.complete hfound isReject]
  · intro other found hfound hfoundState side
    rw [hnext] at hfound
    by_cases heq : other = promise
    · rw [heq, Function.update_self, Option.some.injEq] at hfound
      rw [← hfound]
      exact hempty (hfound ▸ hfoundState) side
    · rw [Function.update_of_ne heq] at hfound
      exact hrt.emptied hfound hfoundState side
  · intro other found hfound hfoundHandled side
    rw [hnext] at hfound
    by_cases heq : other = promise
    · rw [heq, Function.update_self, Option.some.injEq] at hfound
      rw [← hfound, hhandled] at hfoundHandled
      cases hfoundHandled
    · rw [Function.update_of_ne heq] at hfound
      exact hrt.unhandled hfound hfoundHandled side
  · intro other hmem
    rw [hregistered, List.mem_append, List.mem_singleton] at hmem
    rw [hnext]
    by_cases heq : other = promise
    · exact ⟨t, by rw [heq, Function.update_self]⟩
    · rw [Function.update_of_ne heq]
      exact hrt.known other (hmem.resolve_right heq)
  · intro other value hmem
    rw [hframes] at hmem
    rw [hnext]
    obtain ⟨found, hfound, hstate⟩ := hrt.reporting hmem
    by_cases heq : other = promise
    · subst other
      rw [hpromise, Option.some.injEq] at hfound
      exact ⟨t, Function.update_self _ _ _, by rw [hsame.1, hfound]; exact hstate⟩
    · exact ⟨found, by rw [Function.update_of_ne heq, hfound], hstate⟩

theorem subscribe (hrt : rt.Delivering) (promise : Ptr) (resolvingFuncs : JSValue × JSValue)
    (onFulfilled onRejected : JSValue) :
    (rt.subscribe promise resolvingFuncs onFulfilled onRejected).Delivering := by
  rw [PromiseRuntime.subscribe]
  cases hpromise : rt.promises promise with
  | none => exact hrt
  | some s =>
      dsimp only
      split
      · rename_i hpending
        refine hrt.extend { s with
            promiseReactions := fun isReject => s.promiseReactions isReject ++ [⟨resolvingFuncs,
              if isReject then onRejected else onFulfilled, rt.registered.length⟩]
            isHandled := true }
          [] hpromise ⟨rfl, rfl⟩ rfl (fun hstate => absurd hpending hstate)
          (fun _ hmem => by cases hmem) (fun isReject => ?_) rfl (List.append_nil _).symm rfl rfl
        rw [List.map_nil, List.nil_append, List.map_append, List.map_singleton]
      · rename_i hstate
        have hempty := hrt.emptied hpromise hstate
        refine hrt.extend { s with isHandled := true } [⟨rt.registered.length,
          decide (s.promiseState = .rejected), s.promiseResult⟩] hpromise ⟨rfl, rfl⟩ rfl
          (fun _ => hempty) (fun r hmem => ?_) (fun isReject => ?_) rfl ?_ rfl rfl
        · rw [List.mem_singleton.mp hmem]
          exact ⟨rfl, eq_settled hstate, rfl⟩
        · simp [hempty isReject]
        · simp [deliveries, PromiseJob.delivery, setPromise]

theorem performPromiseThen (hrt : rt.Delivering) (promise : Ptr)
    (onFulfilled onRejected : JSValue) (resolvingFuncs : JSValue × JSValue) :
    (rt.performPromiseThen isFunction promise onFulfilled onRejected
      resolvingFuncs).Delivering := by
  rw [PromiseRuntime.performPromiseThen]
  cases hpromise : rt.promises promise with
  | none => exact hrt
  | some s =>
      dsimp only
      split
      · exact hrt.congr rfl rfl rfl fun other value hmem => by
          simpa [PromiseRuntime.push] using hmem
      · exact hrt.subscribe _ _ _ _

theorem resolveFunctionCall (hrt : rt.Delivering) (d : PromiseFunctionData)
    (resolution : JSValue) : (rt.resolveFunctionCall d resolution).Delivering := by
  unfold PromiseRuntime.resolveFunctionCall
  split
  · exact hrt
  · split
    · exact hrt
    · have hcalled : ∀ resolved created, Delivering { rt with
          resolved := resolved, created := created } :=
        fun _ _ => hrt.congr rfl rfl rfl fun _ _ hmem => hmem
      dsimp only
      split
      · split
        · exact (hcalled _ _).fulfillOrRejectPromise _ _ _
        · exact (hcalled _ _).push fun _ _ heq => by cases heq
      · exact (hcalled _ _).fulfillOrRejectPromise _ _ _

theorem callFunction (hrt : rt.Delivering) (func arg : JSValue) :
    (rt.callFunction func arg).Delivering := by
  unfold PromiseRuntime.callFunction
  split
  · split
    · exact hrt.resolveFunctionCall _ _
    · exact hrt.push fun _ _ heq => by cases heq
  · exact hrt

theorem finishReaction (hrt : rt.Delivering) (resolvingFuncs : JSValue × JSValue)
    (completion : Completion) : (rt.finishReaction resolvingFuncs completion).Delivering := by
  cases completion <;> simp only [PromiseRuntime.finishReaction] <;> split <;>
    first | exact hrt | exact hrt.callFunction _ _

theorem newPromise (hrt : rt.Delivering) (hfresh : rt.promises rt.created = none) :
    rt.newPromise.Delivering := by
  have hnot : rt.created ∉ rt.registered := fun hmem => by
    obtain ⟨s, hs⟩ := hrt.known _ hmem
    rw [hfresh] at hs
    cases hs
  have hnone : ∀ n : Nat, rt.registered[n]? ≠ some rt.created := fun n hn =>
    hnot (List.mem_of_getElem? hn)
  have hpromises : rt.newPromise.promises = Function.update rt.promises rt.created
      (some ⟨.pending, fun _ => [], false, .undefined⟩) := rfl
  have hold : ∀ {other s}, rt.promises other = some s → rt.newPromise.promises other = some s := by
    intro other s hs
    rw [hpromises, Function.update_of_ne, hs]
    rintro rfl
    rw [hfresh] at hs
    cases hs
  have hnew : ∀ {other s}, rt.newPromise.promises other = some s →
      rt.promises other = some s ∨
        other = rt.created ∧ s = ⟨.pending, fun _ => [], false, .undefined⟩ := by
    intro other s hs
    rw [hpromises] at hs
    by_cases heq : other = rt.created
    · rw [heq, Function.update_self, Option.some.injEq] at hs
      exact .inr ⟨heq, hs.symm⟩
    · rw [Function.update_of_ne heq] at hs
      exact .inl hs
  constructor
  · intro r hmem
    obtain ⟨owner, s, howner, hs, hrest⟩ := hrt.outcome r hmem
    exact ⟨owner, s, howner, hold hs, hrest⟩
  · intro other s hs isReject
    change (rt.deliveries.filter (rt.owns other)).map (·.registration) ++ _ =
      rt.registrationsOn other
    rcases hnew hs with hs | ⟨rfl, rfl⟩
    · exact hrt.complete hs isReject
    · have hdelivered : rt.deliveries.filter (rt.owns rt.created) = [] :=
        List.filter_eq_nil_iff.mpr fun r _ howns => hnone r.registration (beq_iff_eq.mp howns)
      have hregistered : rt.registrationsOn rt.created = [] :=
        List.filter_eq_nil_iff.mpr fun n _ hn => hnone n (beq_iff_eq.mp hn)
      rw [hdelivered, hregistered]
      rfl
  · intro other s hs hstate isReject
    rcases hnew hs with hs | ⟨rfl, rfl⟩
    · exact hrt.emptied hs hstate isReject
    · rfl
  · intro other s hs hhandled isReject
    rcases hnew hs with hs | ⟨rfl, rfl⟩
    · exact hrt.unhandled hs hhandled isReject
    · rfl
  · intro other hmem
    obtain ⟨s, hs⟩ := hrt.known other hmem
    exact ⟨s, hold hs⟩
  · intro other value hmem
    obtain ⟨s, hs, hstate⟩ := hrt.reporting ((List.mem_cons.mp hmem).resolve_left (by simp))
    exact ⟨s, hold hs, hstate⟩

theorem executePendingJob (hrt : rt.Delivering) : rt.executePendingJob.Delivering := by
  rw [PromiseRuntime.executePendingJob]
  split
  · exact hrt
  · rename_i rd isReject arg rest hjobs
    have hrest : Delivering { rt with
        jobList := rest, ran := rt.ran ++ [⟨rd.registration, isReject, arg⟩] } :=
      hrt.congr rfl (by simp [deliveries, hjobs, PromiseJob.delivery]) rfl fun _ _ hmem => hmem
    rw [promiseReactionJob]
    dsimp only
    split
    · exact hrest.finishReaction _ _
    · exact hrest.push fun _ _ heq => by cases heq
  · rename_i promise thenable then_ rest hjobs
    refine hrt.congr rfl ?_ rfl fun other value hmem =>
      (List.mem_cons.mp hmem).resolve_left (by simp)
    have hnone : (PromiseJob.resolveThenable promise thenable then_).delivery = none := rfl
    rw [deliveries, deliveries, hjobs, List.filterMap_cons_none hnone]
    rfl

theorem resume (hrt : rt.Delivering) (hframes : rt.frames = frame :: frames)
    (completion : Completion) :
    ({ rt with frames := frames }.resume isFunction frame completion).Delivering := by
  have hrest : Delivering { rt with frames := frames } :=
    hrt.congr rfl rfl rfl fun _ _ hmem => hframes ▸ List.mem_cons_of_mem _ hmem
  unfold PromiseRuntime.resume
  split
  · exact hrest.fulfillOrRejectPromise _ _ _
  · split
    · exact hrest.congr rfl (by simp [deliveries, enqueueJob, PromiseJob.delivery]) rfl
        fun _ _ hmem => hmem
    · exact hrest.fulfillOrRejectPromise _ _ _
  · obtain ⟨s, hpromise, hstate⟩ := hrt.reporting (hframes ▸ List.mem_cons_self)
    rw [hrest.flushReactions hpromise hstate]
    exact hrest
  · exact hrest.subscribe _ _ _ _
  · exact hrest.finishReaction _ _
  · exact hrest.callFunction _ _
  · exact hrest
  · exact hrest

theorem step (hrt : rt.Delivering) (hfresh : rt.promises rt.created = none)
    {action : PromiseAction} (hstep : PromiseRuntime.step isFunction rt action = .ok next) :
    next.Delivering := by
  cases action with
  | setTracker installed =>
      cases hstep
      exact hrt.congr rfl rfl rfl fun _ _ hmem => hmem
  | newPromise =>
      cases hstep
      exact hrt.newPromise hfresh
  | call func arg =>
      cases hstep
      exact hrt.callFunction func arg
  | then_ promise onFulfilled onRejected resolvingFuncs =>
      cases hstep
      exact hrt.performPromiseThen _ _ _ _
  | executePendingJob =>
      cases hstep
      exact hrt.executePendingJob
  | complete completion =>
      simp only [PromiseRuntime.step] at hstep
      split at hstep
      · cases hstep
      · cases hstep
        exact hrt.resume ‹_› completion

end Delivering

theorem new_delivering : new.Delivering where
  outcome r hmem := by cases hmem
  complete hpromise := by cases hpromise
  emptied hpromise := by cases hpromise
  unhandled hpromise := by cases hpromise
  known promise hmem := by cases hmem
  reporting hmem := by cases hmem

theorem OneWay.fresh {taken : List Ptr} (hrt : OneWay taken rt) :
    rt.promises rt.created = none := by
  cases hpromise : rt.promises rt.created with
  | none => rfl
  | some s => exact absurd (hrt.bounded hpromise) (Nat.lt_irrefl _)

theorem delivering_of_run {actions : List PromiseAction}
    (hrun : (PromiseRuntime.step isFunction).run new actions = .ok rt) : rt.Delivering :=
  (StepFn.run_invariant_of_step _ (fun state => OneWay [] state ∧ state.Delivering)
    (fun _ _ _ hstate hstep => ⟨hstate.1.step hstep, hstate.2.step hstate.1.fresh hstep⟩)
    ⟨new_oneWay, new_delivering⟩ hrun).2

/-- In every state that scripts can reach, no reaction to a pending promise is queued or has
run, and of a settled promise all reactions are queued or have run, each once, in the order
in which they were added, with its state and its result. -/
theorem reactions_run_once {actions : List PromiseAction}
    (hrun : (PromiseRuntime.step isFunction).run new actions = .ok rt)
    (hpromise : rt.promises promise = some s) :
    rt.deliveries.filter (rt.owns promise) =
      if s.promiseState = .pending then []
      else (rt.registrationsOn promise).map fun n =>
        ⟨n, decide (s.promiseState = .rejected), s.promiseResult⟩ := by
  have hrt := delivering_of_run hrun
  split
  · exact hrt.none_of_pending hpromise ‹_›
  · rename_i hstate
    have hcomplete := hrt.complete hpromise false
    rw [hrt.emptied hpromise hstate, List.map_nil, List.append_nil] at hcomplete
    rw [← hcomplete, List.map_map]
    refine (List.map_id _).symm.trans (List.map_congr_left fun r hmem => ?_)
    obtain ⟨hdelivered, howns⟩ := List.mem_filter.mp hmem
    obtain ⟨owner, found, howner, hfound, hfoundState, hresult⟩ := hrt.outcome r hdelivered
    rw [Delivering.owns_iff howner] at howns
    subst owner
    rw [hpromise, Option.some.injEq] at hfound
    subst found
    have hside : decide (s.promiseState = .rejected) = r.isReject := by
      rw [hfoundState]
      cases r.isReject <;> rfl
    simp only [id_eq, Function.comp_apply, hside, hresult]

/-- A reaction is added before the promise is resolved and one after; the first runs. -/
def reactedActions : List PromiseAction :=
  [.newPromise, .then_ 0 .undefined .undefined (.undefined, .undefined),
    .call (.ref .object 1) (.int 7), .complete (.returned .undefined),
    .then_ 0 .undefined .undefined (.undefined, .undefined), .executePendingJob]

def reactedState : PromiseRuntime :=
  match (step fun _ => false).run new reactedActions with
  | .ok rt => rt
  | .error _ => new

theorem run_reactedActions : (step fun _ => false).run new reactedActions = .ok reactedState :=
  rfl

def reactedPromise : PromiseData where
  promiseState := .fulfilled
  promiseReactions _ := []
  isHandled := true
  promiseResult := .int 7

theorem reactions_run_once_reacted : reactedState.deliveries.filter (reactedState.owns 0) =
    if reactedPromise.promiseState = .pending then []
    else (reactedState.registrationsOn 0).map fun n =>
      ⟨n, decide (reactedPromise.promiseState = .rejected), reactedPromise.promiseResult⟩ :=
  reactions_run_once run_reactedActions rfl

example : (reactedState.ran, reactedState.jobList.length) = ([⟨0, false, .int 7⟩], 1) := by decide

end PromiseRuntime

end QuickjsBackend
