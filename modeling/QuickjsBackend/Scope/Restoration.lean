import QuickjsBackend.Scope.Nesting

/-! # Scopes put back what they found

Closing a scope restores what was there when it was opened. A switching
`Context::Scope` leaves no job; what it runs has its context current, unless a job
closes a `Context::Scope` of its own, which then runs the jobs that are left.
-/

namespace QuickjsBackend

open Foundation

/-- The frame is a `Context::Scope` that has switched to the context and whose
destructor runs jobs. -/
def ScopeFrame.Draining (setup : Setup) (frame : ScopeFrame) (context : Nat) : Prop :=
  ∃ prev, frame.activity = .closing (.context context)
    (.context (setup.isolateOf context) true prev)

namespace Thread

variable {setup : Setup} {base : Ambient} {thread next : Thread} {action : ThreadAction}

/-- A frame that is left leaves everything as it was when it was opened, and a
`Context::Scope` that has switched leaves no job. A job begins in the destructor of
one, while the contexts of all that are closing on its runtime are still current.
Reading through null is no way to close a scope. -/
def Restores (setup : Setup) (thread : Thread) (_ : ThreadAction)
    (outcome : Except ThreadFault Thread) : Prop :=
  match outcome with
  | .error fault => fault ≠ .nullDeref
  | .ok next =>
      (∀ frame rest, thread.stack = frame :: rest → next.stack = rest →
        next.ambient = frame.opened ∧
          ∀ opening id prev,
            frame.activity = .scope opening (.context id true prev) ∨
              frame.activity = .closing opening (.context id true prev) →
            next.jobs (setup.runtimeOf id) = [] ∧
              next.ran (setup.runtimeOf id) = next.enqueued (setup.runtimeOf id)) ∧
      ∀ frame job, next.stack = frame :: thread.stack → frame.activity = .job job →
        ∃ scope rest drained, thread.stack = scope :: rest ∧ scope.Draining setup drained ∧
          ∀ other ∈ thread.stack, ∀ context, other.Draining setup context →
            setup.runtimeOf (setup.isolateOf context) =
              setup.runtimeOf (setup.isolateOf drained) →
            frame.entered.context (setup.isolateOf context) = some context

/-- No `TryCatch` is destroyed while its isolate has no current context. -/
def CatchesInContext (thread : Thread) (action : ThreadAction) : Prop :=
  action = .destruct → ∀ frame rest opening id prev, thread.stack = frame :: rest →
    frame.activity = .scope opening (.tryCatch id prev) → thread.ambient.context id ≠ none

/-- No `Context::Scope` runs jobs inside the closing one of another context of its
isolate and runtime, as one does that a job has opened and closed. -/
def DrainsInContext (setup : Setup) (base : Ambient) (thread : Thread) (action : ThreadAction) :
    Prop :=
  action = .proceed → ∀ frame rest drained, thread.stack = frame :: rest →
    frame.Draining setup drained →
    thread.jobs (setup.runtimeOf (setup.isolateOf drained)) ≠ [] →
    ∀ other ∈ thread.stack, ∀ context, other.Draining setup context →
      setup.runtimeOf (setup.isolateOf context) = setup.runtimeOf (setup.isolateOf drained) →
      enteredContext setup base (setup.isolateOf context) thread.stack = some context

theorem destruct_nullDeref_iff {frame : ScopeFrame} {opening : Opening} {scope : Scope} :
    thread.destruct frame opening scope = .error .nullDeref ↔
      ∃ id prev, scope = .tryCatch id prev ∧ thread.ambient.context id = none := by
  cases scope with
  | isolate => simp [destruct]
  | context id enterNew prev => cases enterNew <;> simp [destruct]
  | handle => simp [destruct]
  | tryCatch id prev =>
      simp only [destruct, Scope.restore]
      cases hcontext : thread.ambient.context id with
      | none => simp [hcontext]
      | some context => simp [hcontext]

theorem step_nullDeref_iff (setup : Setup) :
    Thread.step setup thread action = .error .nullDeref ↔ ¬ thread.CatchesInContext action := by
  unfold CatchesInContext
  constructor
  · intro hstep hcatches
    unfold Thread.step at hstep
    split at hstep
    next => cases hstep
    next hstack =>
      obtain ⟨id, prev, rfl, hnone⟩ := destruct_nullDeref_iff.mp hstep
      exact hcatches rfl _ _ _ id prev hstack rfl hnone
    all_goals cases hstep
  · intro hnot
    simp only [not_forall, not_not] at hnot
    obtain ⟨rfl, frame, rest, opening, id, prev, hstack, hactivity, hnone⟩ := hnot
    obtain ⟨activity, opened, entered⟩ := frame
    dsimp only at hactivity
    subst hactivity
    simp only [Thread.step, hstack]
    exact destruct_nullDeref_iff.mpr ⟨id, prev, rfl, hnone⟩

theorem length_constructAll (openings : List Opening) :
    (thread.constructAll setup openings).stack.length = thread.stack.length + openings.length := by
  induction openings generalizing thread with
  | nil => rfl
  | cons opening rest ih =>
      rw [constructAll, List.foldl_cons, ← constructAll, ih, List.length_cons]
      simp only [construct, push, List.length_cons]
      omega

/-- Frames are left in the reverse order, and put back what they found. -/
theorem Orderly.left (horderly : thread.Orderly setup base)
    (hnext : ThreadTransition setup thread action next)
    {frame : ScopeFrame} {rest : List ScopeFrame} (hstack : thread.stack = frame :: rest)
    (hrest : next.stack = rest) :
    next.ambient = frame.opened ∧
      ∀ opening id prev,
        frame.activity = .scope opening (.context id true prev) ∨
          frame.activity = .closing opening (.context id true prev) →
        next.jobs (setup.runtimeOf id) = [] := by
  have hshorter : next.stack.length < thread.stack.length := by
    rw [hrest, hstack]
    exact Nat.lt_succ_self _
  cases hnext with
  | construct opening => exact absurd hshorter (by simp [Thread.construct, Thread.push])
  | @close other _ opening scope hother hactivity hscope =>
      cases hother.symm.trans hstack
      refine ⟨horderly.restore_eq hstack (.inl hactivity), fun opening id prev h => ?_⟩
      rw [hactivity] at h
      rcases h with h | h
      · cases h
        exact absurd rfl (hscope id prev)
      · cases h
  | begin hother => simp [Thread.advance, hstack] at hshorter
  | beginTryCatch hother => simp [Thread.advance, hstack] at hshorter
  | runJob => exact absurd hshorter (by simp [Thread.executePendingJob, Thread.push])
  | @finish other _ opening scope hother hactivity hscope hjobs =>
      cases hother.symm.trans hstack
      refine ⟨horderly.restore_eq hstack (.inr ⟨hactivity, hscope⟩), fun opening id prev h => ?_⟩
      rw [hactivity] at h
      rcases h with h | h
      · cases h
      · cases h
        exact hjobs id true prev rfl
  | @finishTryCatch other _ opening id prev hother hactivity =>
      cases hother.symm.trans hstack
      refine ⟨horderly.opened_eq hstack (.inl ⟨_, _, _, hactivity⟩), fun opening id prev h => ?_⟩
      rw [hactivity] at h
      rcases h with h | h <;> cases h
  | enqueueJob => simp [Thread.enqueueJob] at hshorter
  | @done _ other _ _ hother hscope hclosing =>
      cases hother.symm.trans hstack
      refine ⟨horderly.opened_eq hstack (.inr ⟨hscope, hclosing⟩), fun opening id prev h => ?_⟩
      rcases h with h | h
      · exact absurd h (hscope _ _)
      · exact absurd h (hclosing _ _)
  | enter entry address =>
      simp only [Thread.enter, Thread.push, List.length_cons, length_constructAll] at hshorter
      omega

theorem length_pop (after : Ambient) :
    (thread.pop after).stack.length = thread.stack.length - 1 := List.length_tail

/-- Jobs begin in the scope that is closing, with what is current there. -/
theorem Orderly.begun (horderly : thread.Orderly setup base)
    (hnext : ThreadTransition setup thread action next)
    {frame : ScopeFrame} {job : Job} (hstack : next.stack = frame :: thread.stack)
    (hjob : frame.activity = .job job) :
    action = .proceed ∧ frame.entered = thread.ambient ∧
      ∃ scope rest drained, thread.stack = scope :: rest ∧ scope.Draining setup drained ∧
        thread.jobs (setup.runtimeOf (setup.isolateOf drained)) ≠ [] := by
  have hlonger : next.stack.length = thread.stack.length + 1 := by
    rw [hstack]
    rfl
  cases hnext with
  | construct opening =>
      cases hstack
      cases hjob
  | close =>
      rw [length_pop] at hlonger
      omega
  | begin hother => simp [Thread.advance, hother] at hlonger
  | beginTryCatch hother => simp [Thread.advance, hother] at hlonger
  | @runJob scope rest opening id enterNew prev other jobs hother hactivity hjobs =>
      cases hstack
      have hsound := horderly.sound scope (by rw [hother]; exact List.mem_cons_self)
      obtain ⟨context, rfl, rfl, _⟩ := Setup.context_of_construct
        (hsound.restore (.inr ⟨hactivity, by simp⟩))
      unfold ScopeFrame.Sound at hsound
      simp only [hactivity] at hsound
      obtain ⟨rfl, _⟩ := hsound
      exact ⟨rfl, rfl, scope, rest, context, hother, ⟨prev, hactivity⟩,
        hjobs ▸ List.cons_ne_nil other jobs⟩
  | finish =>
      rw [length_pop] at hlonger
      omega
  | finishTryCatch =>
      rw [length_pop] at hlonger
      omega
  | enqueueJob => simp [Thread.enqueueJob] at hlonger
  | done =>
      rw [length_pop] at hlonger
      omega
  | enter entry address =>
      obtain ⟨hhead, _⟩ := List.cons.inj hstack
      rw [← hhead] at hjob
      cases hjob

/-- The first job of the queue begins. -/
theorem step_proceed_of_draining {frame : ScopeFrame} {rest : List ScopeFrame} {drained : Nat}
    (hstack : thread.stack = frame :: rest) (hdraining : frame.Draining setup drained)
    (hjobs : thread.jobs (setup.runtimeOf (setup.isolateOf drained)) ≠ []) :
    ∃ job next, Thread.step setup thread .proceed = .ok next ∧
      next.stack = ⟨.job job, thread.ambient, thread.ambient⟩ :: thread.stack := by
  obtain ⟨prev, hactivity⟩ := hdraining
  obtain ⟨activity, opened, entered⟩ := frame
  dsimp only at hactivity
  subst hactivity
  obtain ⟨job, jobs, hqueue⟩ := List.exists_cons_of_ne_nil hjobs
  refine ⟨job, thread.executePendingJob (setup.runtimeOf (setup.isolateOf drained)) job jobs, ?_,
    rfl⟩
  simp only [Thread.step, hstack, proceed, hqueue]

theorem Orderly.restores_iff (horderly : thread.Orderly setup base)
    (hstep : Thread.step setup thread action = .ok next) :
    Restores setup thread action (.ok next) ↔ DrainsInContext setup base thread action := by
  have hnext := transition_of_step hstep
  have hfollows := follows_of_nested horderly.nested horderly.sound
  constructor
  · rintro ⟨_, hbegins⟩ rfl frame rest drained hstack hdraining hjobs
    intro other hmem context hother hsame
    obtain ⟨job, started, hstarted, hframe⟩ := step_proceed_of_draining hstack hdraining hjobs
    cases hstarted.symm.trans hstep
    obtain ⟨scope, tail, inner, htop, hinner, hcurrent⟩ := hbegins _ job hframe rfl
    cases htop.symm.trans hstack
    obtain ⟨prev, hactivity⟩ := hdraining
    obtain ⟨before, hbefore⟩ := hinner
    cases hactivity.symm.trans hbefore
    rw [← hfollows.context]
    exact hcurrent other hmem context hother hsame
  · intro hdrains
    refine ⟨fun frame rest hstack hrest => ?_, fun frame job hstack hjob => ?_⟩
    · obtain ⟨hambient, hjobs⟩ := horderly.left hnext hstack hrest
      refine ⟨hambient, fun opening id prev h => ?_⟩
      have hnone := hjobs opening id prev h
      have hqueued := (horderly.transition hnext).queued (setup.runtimeOf id)
      rw [hnone, List.append_nil] at hqueued
      exact ⟨hnone, hqueued.symm⟩
    · obtain ⟨haction, hentered, scope, rest, drained, htop, hdraining, hjobs⟩ :=
        horderly.begun hnext hstack hjob
      refine ⟨scope, rest, drained, htop, hdraining, fun other hmem context hother hsame => ?_⟩
      rw [hentered, hfollows.context]
      exact hdrains haction scope rest drained htop hdraining hjobs other hmem context hother hsame

/-- In every run of scopes, jobs and callbacks, closing a scope restores what was
there when it was opened, and jobs run in the contexts that are closing, exactly as
long as every `TryCatch` is destroyed with a current context and no job closes a
`Context::Scope` of another context with jobs left. -/
theorem restores_iff_inContext (setup : Setup) (ambient : Ambient) (jobs : Nat → List Job)
    (actions : List ThreadAction) :
    (Thread.step setup).Always (Restores setup) (idle ambient jobs) actions ↔
      (Thread.step setup).Always
        (fun thread action _ => thread.CatchesInContext action ∧
          DrainsInContext setup ambient thread action)
        (idle ambient jobs) actions := by
  refine (Thread.step setup).always_iff_of_invariant (Orderly setup ambient) ?_
    (fun _ _ _ horderly _ hstep => horderly.step hstep) actions (orderly_idle ambient jobs)
  intro thread action horderly
  cases hstep : Thread.step setup thread action with
  | error fault =>
      have hdrains : DrainsInContext setup ambient thread action := by
        rintro rfl frame rest drained hstack hdraining hjobs
        obtain ⟨job, next, hok, _⟩ := step_proceed_of_draining hstack hdraining hjobs
        cases hok.symm.trans hstep
      rw [and_iff_left hdrains, ← not_iff_not, ← step_nullDeref_iff setup, hstep]
      simp [Restores]
  | ok next =>
      have hcatches : thread.CatchesInContext action := by
        by_contra hnot
        rw [← step_nullDeref_iff setup, hstep] at hnot
        cases hnot
      rw [and_iff_right hcatches]
      exact horderly.restores_iff hstep

/-- A `TryCatch` in an isolate of which no context has been entered. -/
theorem tryCatch_without_context :
    ¬ (Thread.step .single).Always (Restores .single) (idle .outside fun _ => [])
      [.construct (.isolate 0), .construct (.tryCatch 0 1), .destruct] := by
  intro hrestores
  have hlast := (Thread.step .single).always_iff_forall_reached.mp hrestores
    [.construct (.isolate 0), .construct (.tryCatch 0 1)] .destruct [] _ rfl rfl
  exact hlast rfl

end Thread

end QuickjsBackend
