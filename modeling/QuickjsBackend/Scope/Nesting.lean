import QuickjsBackend.Scope.Frame

/-! # Scopes in brackets

Each frame remembers what it was opened with. Every step leaves the frames in
brackets, so that a scope finds what its constructor left when its destructor comes
to put the old value back, whatever has been opened and closed in between. What is
current is then what the innermost scopes have entered.
-/

namespace QuickjsBackend

open Foundation

/-- What an unhindered step does. -/
inductive ThreadTransition (setup : Setup) (thread : Thread) : ThreadAction → Thread → Prop
  | construct (opening : Opening) :
      ThreadTransition setup thread (.construct opening) (thread.construct setup opening)
  | close {frame : ScopeFrame} {rest : List ScopeFrame} {opening : Opening} {scope : Scope}
      (hstack : thread.stack = frame :: rest) (hactivity : frame.activity = .scope opening scope)
      (hscope : ∀ id prev, scope ≠ .context id true prev) :
      ThreadTransition setup thread .destruct (thread.pop (scope.restore thread.ambient))
  | begin {frame : ScopeFrame} {rest : List ScopeFrame} {opening : Opening} {scope : Scope}
      (hstack : thread.stack = frame :: rest) (hactivity : frame.activity = .scope opening scope)
      (hscope : ∀ id prev, scope ≠ .tryCatch id prev)
      (hnew : ∀ id prev, scope ≠ .context id false prev) :
      ThreadTransition setup thread .destruct
        (thread.advance frame (.closing opening scope) thread.ambient)
  | beginTryCatch {frame : ScopeFrame} {rest : List ScopeFrame} {opening : Opening} {id : Nat}
      {prev : Option Nat} (hstack : thread.stack = frame :: rest)
      (hactivity : frame.activity = .scope opening (.tryCatch id prev)) :
      ThreadTransition setup thread .destruct (thread.advance frame
        (.closing opening (.tryCatch id prev)) ((Scope.tryCatch id prev).restore thread.ambient))
  | runJob {frame : ScopeFrame} {rest : List ScopeFrame} {opening : Opening} {id : Nat}
      {enterNew : Bool} {prev : Option Nat} {job : Job} {jobs : List Job}
      (hstack : thread.stack = frame :: rest)
      (hactivity : frame.activity = .closing opening (.context id enterNew prev))
      (hjobs : thread.jobs (setup.runtimeOf id) = job :: jobs) :
      ThreadTransition setup thread .proceed
        (thread.executePendingJob (setup.runtimeOf id) job jobs)
  | finish {frame : ScopeFrame} {rest : List ScopeFrame} {opening : Opening} {scope : Scope}
      (hstack : thread.stack = frame :: rest) (hactivity : frame.activity = .closing opening scope)
      (hscope : ∀ id prev, scope ≠ .tryCatch id prev)
      (hjobs : ∀ id enterNew prev, scope = .context id enterNew prev →
        thread.jobs (setup.runtimeOf id) = []) :
      ThreadTransition setup thread .proceed (thread.pop (scope.restore thread.ambient))
  | finishTryCatch {frame : ScopeFrame} {rest : List ScopeFrame} {opening : Opening} {id : Nat}
      {prev : Option Nat} (hstack : thread.stack = frame :: rest)
      (hactivity : frame.activity = .closing opening (.tryCatch id prev)) :
      ThreadTransition setup thread .proceed (thread.pop thread.ambient)
  | enqueueJob (job : Job) :
      ThreadTransition setup thread (.enqueueJob job.ctx job.work) (thread.enqueueJob setup job)
  | done {action : ThreadAction} {frame : ScopeFrame} {rest : List ScopeFrame}
      (haction : ∀ entry address, action ≠ .enter entry address)
        (hstack : thread.stack = frame :: rest)
      (hscope : ∀ opening scope, frame.activity ≠ .scope opening scope)
      (hclosing : ∀ opening scope, frame.activity ≠ .closing opening scope) :
      ThreadTransition setup thread action (thread.pop thread.ambient)
  | enter (entry : Entry) (address : Nat) :
      ThreadTransition setup thread (.enter entry address) (thread.enter setup entry address)

/-- The frame is as its constructor and destructor have left it. -/
def ScopeFrame.Sound (setup : Setup) (frame : ScopeFrame) : Prop :=
  match frame.activity with
  | .scope opening scope => setup.construct frame.opened opening = (scope, frame.entered)
  | .closing opening scope =>
      match scope with
      | .tryCatch _ _ =>
          (∃ id address, opening = .tryCatch id address) ∧ frame.entered = frame.opened
      | .context _ enterNew _ =>
          enterNew = true ∧ setup.construct frame.opened opening = (scope, frame.entered)
      | scope => setup.construct frame.opened opening = (scope, frame.entered)
  | _ => frame.entered = frame.opened

namespace Setup

variable {setup : Setup} {ambient : Ambient}

/-- The destructor undoes the constructor. -/
theorem restore_construct (opening : Opening) :
    (setup.construct ambient opening).1.restore (setup.construct ambient opening).2 = ambient := by
  cases opening with
  | isolate id => rfl
  | context id =>
      simp only [construct]
      split
      next =>
        simp only [Scope.restore, if_true, Function.update_idem, Function.update_eq_self]
      next => rfl
  | handle id address =>
      simp only [construct, Scope.restore, Function.update_idem, Function.update_eq_self]
  | tryCatch id address =>
      simp only [construct, Scope.restore, Function.update_idem, Function.update_eq_self]

theorem restore_of_construct {opening : Opening} {scope : Scope} {after : Ambient}
    (hconstruct : setup.construct ambient opening = (scope, after)) :
    scope.restore after = ambient := by
  have hrestore : (setup.construct ambient opening).1.restore (setup.construct ambient opening).2 =
      ambient := restore_construct opening
  rw [hconstruct] at hrestore
  exact hrestore

/-- The context of a `Context::Scope` is the current one of its isolate. -/
theorem context_of_construct {opening : Opening} {id : Nat} {enterNew : Bool}
    {prev : Option Nat} {after : Ambient}
    (hconstruct : setup.construct ambient opening = (.context id enterNew prev, after)) :
    ∃ context, opening = .context context ∧ id = setup.isolateOf context ∧
      after.context id = some context := by
  cases opening with
  | isolate id => cases hconstruct
  | context context =>
      simp only [construct] at hconstruct
      split at hconstruct
      next =>
        cases hconstruct
        exact ⟨context, rfl, rfl, Function.update_self ..⟩
      next hsame =>
        cases hconstruct
        exact ⟨context, rfl, rfl, (not_ne_iff.mp hsame).symm⟩
  | handle id address => cases hconstruct
  | tryCatch id address => cases hconstruct

theorem tryCatch_of_construct {opening : Opening} {id : Nat} {prev : Option Nat} {after : Ambient}
    (hconstruct : setup.construct ambient opening = (.tryCatch id prev, after)) :
    ∃ id address, opening = .tryCatch id address := by
  cases opening with
  | isolate id => cases hconstruct
  | context context =>
      simp only [construct] at hconstruct
      split at hconstruct <;> cases hconstruct
  | handle id address => cases hconstruct
  | tryCatch id address => exact ⟨id, address, rfl⟩

end Setup

/-- What a frame in order finds when it is left. -/
theorem ScopeFrame.Sound.restore {setup : Setup} {frame : ScopeFrame} {opening : Opening}
    {scope : Scope} (hsound : frame.Sound setup)
    (hactivity : frame.activity = .scope opening scope ∨
      (frame.activity = .closing opening scope ∧ ∀ id prev, scope ≠ .tryCatch id prev)) :
    setup.construct frame.opened opening = (scope, frame.entered) := by
  unfold ScopeFrame.Sound at hsound
  rcases hactivity with hactivity | ⟨hactivity, hscope⟩
  · rw [hactivity] at hsound
    exact hsound
  · rw [hactivity] at hsound
    cases scope with
    | tryCatch id prev => exact absurd rfl (hscope id prev)
    | isolate => exact hsound
    | context => exact hsound.2
    | handle => exact hsound

/-- The constructor call of a scope that is there. -/
def Activity.opening : Activity → Option Opening
  | .scope opening _ => some opening
  | .closing opening _ => some opening
  | _ => none

/-- The isolate of the innermost `Isolate::Scope`. -/
def enteredIsolate (base : Ambient) : List ScopeFrame → Option Nat
  | [] => base.current
  | frame :: rest =>
      match frame.activity.opening with
      | some (.isolate id) => some id
      | _ => enteredIsolate base rest

/-- The context of the innermost `Context::Scope` of the isolate. -/
def enteredContext (setup : Setup) (base : Ambient) (id : Nat) : List ScopeFrame → Option Nat
  | [] => base.context id
  | frame :: rest =>
      match frame.activity.opening with
      | some (.context context) =>
          if id = setup.isolateOf context then some context else enteredContext setup base id rest
      | _ => enteredContext setup base id rest

/-- What is current is what the innermost scopes have entered. -/
structure Follows (setup : Setup) (base ambient : Ambient) (stack : List ScopeFrame) : Prop where
  current : ambient.current = enteredIsolate base stack
  context : ∀ id, ambient.context id = enteredContext setup base id stack

namespace Follows

variable {setup : Setup} {base ambient : Ambient} {stack : List ScopeFrame}

/-- The constructors make the new scope the innermost one. -/
theorem construct {frame : ScopeFrame} {opening : Opening} {scope : Scope}
    (hfollows : Follows setup base ambient stack) (hopening : frame.activity.opening = some opening)
    (hconstruct : setup.construct ambient opening = (scope, frame.entered)) :
    Follows setup base frame.entered (frame :: stack) := by
  have hentered : frame.entered = (setup.construct ambient opening).2 := by rw [hconstruct]
  rw [hentered]
  cases opening with
  | isolate id =>
      refine ⟨by simp only [enteredIsolate, hopening, Setup.construct], fun id => ?_⟩
      simp only [enteredContext, hopening, Setup.construct, hfollows.context]
  | context context =>
      have hcontext : ∀ id, (setup.construct ambient (.context context)).2.context id =
          if id = setup.isolateOf context then some context else ambient.context id := by
        intro id
        simp only [Setup.construct]
        split
        next => simp only [Function.update_apply]
        next hsame =>
          rw [not_ne_iff] at hsame
          split
          next heq => rw [heq, hsame]
          next => rfl
      refine ⟨?_, fun id => ?_⟩
      · simp only [enteredIsolate, hopening, ← hfollows.current, Setup.construct]
        split <;> rfl
      · simp only [enteredContext, hopening, hcontext, hfollows.context]
  | handle id address =>
      refine ⟨?_, fun id => ?_⟩
      · simp only [enteredIsolate, hopening, Setup.construct, hfollows.current]
      · simp only [enteredContext, hopening, Setup.construct, hfollows.context]
  | tryCatch id address =>
      refine ⟨?_, fun id => ?_⟩
      · simp only [enteredIsolate, hopening, Setup.construct, hfollows.current]
      · simp only [enteredContext, hopening, Setup.construct, hfollows.context]

/-- What is neither an isolate's nor a context's scope changes nothing of it. -/
theorem same {frame : ScopeFrame} (hfollows : Follows setup base ambient stack)
    (hopening : ∀ opening, frame.activity.opening = some opening →
      ∃ id address, opening = .tryCatch id address) :
    Follows setup base ambient (frame :: stack) := by
  cases hcase : frame.activity.opening with
  | none =>
      refine ⟨by simp only [enteredIsolate, hcase, hfollows.current], fun id => ?_⟩
      simp only [enteredContext, hcase, hfollows.context]
  | some opening =>
      obtain ⟨id, address, rfl⟩ := hopening opening hcase
      refine ⟨by simp only [enteredIsolate, hcase, hfollows.current], fun id => ?_⟩
      simp only [enteredContext, hcase, hfollows.context]

end Follows

namespace Thread

variable {setup : Setup} {base : Ambient} {thread next : Thread} {action : ThreadAction}

theorem transition_of_destruct {frame : ScopeFrame} {rest : List ScopeFrame} {opening : Opening}
    {scope : Scope} (hstack : thread.stack = frame :: rest)
    (hactivity : frame.activity = .scope opening scope)
    (hstep : thread.destruct frame opening scope = .ok next) :
    ThreadTransition setup thread .destruct next := by
  cases scope with
  | isolate prevIsolate =>
      cases hstep
      exact .close hstack hactivity (by simp)
  | context id enterNew prevContext =>
      cases enterNew with
      | true =>
          cases hstep
          exact .begin hstack hactivity (by simp) (by simp)
      | false =>
          cases hstep
          exact .close hstack hactivity (by simp)
  | handle id prevScope =>
      cases hstep
      exact .begin hstack hactivity (by simp) (by simp)
  | tryCatch id prev =>
      unfold destruct at hstep
      dsimp only at hstep
      split at hstep
      next => cases hstep
      next =>
        cases hstep
        exact .beginTryCatch hstack hactivity

theorem transition_of_proceed {frame : ScopeFrame} {rest : List ScopeFrame} {opening : Opening}
    {scope : Scope} (hstack : thread.stack = frame :: rest)
    (hactivity : frame.activity = .closing opening scope) :
    ThreadTransition setup thread .proceed (thread.proceed setup scope) := by
  cases scope with
  | isolate prevIsolate => exact .finish hstack hactivity (by simp) (by simp)
  | context id enterNew prevContext =>
      unfold proceed
      dsimp only
      cases hjobs : thread.jobs (setup.runtimeOf id) with
      | nil =>
          refine .finish hstack hactivity (by simp) fun other enterNew prev heq => ?_
          cases heq
          exact hjobs
      | cons job jobs => exact .runJob hstack hactivity hjobs
  | handle id prevScope => exact .finish hstack hactivity (by simp) (by simp)
  | tryCatch id prev => exact .finishTryCatch hstack hactivity

theorem transition_of_step (hstep : step setup thread action = .ok next) :
    ThreadTransition setup thread action next := by
  unfold step at hstep
  split at hstep
  next opening => cases hstep; exact .construct opening
  next hstack => exact transition_of_destruct hstack rfl hstep
  next hstack => cases hstep; exact transition_of_proceed hstack rfl
  next ctx work => cases hstep; exact .enqueueJob ⟨ctx, work⟩
  next hstack => cases hstep; exact .done (by simp) hstack (by simp) (by simp)
  next entry address => cases hstep; exact .enter entry address
  next hstack => cases hstep; exact .done (by simp) hstack (by simp) (by simp)
  next hstack => cases hstep; exact .done (by simp) hstack (by simp) (by simp)
  next => cases hstep

/-- The frames are in brackets, each as its constructor and destructor have left it,
and jobs wait in their order. -/
structure Orderly (setup : Setup) (base : Ambient) (thread : Thread) : Prop where
  nested : Nested base thread.ambient thread.stack
  sound : ∀ frame ∈ thread.stack, frame.Sound setup
  queued : ∀ runtime, thread.enqueued runtime = thread.ran runtime ++ thread.jobs runtime

theorem orderly_idle (ambient : Ambient) (jobs : Nat → List Job) :
    (idle ambient jobs).Orderly setup ambient where
  nested := rfl
  sound _ hmem := nomatch hmem
  queued _ := rfl

namespace Orderly

/-- What is current is what the innermost frame was entered with. -/
theorem ambient_eq (horderly : thread.Orderly setup base) {frame : ScopeFrame}
    {rest : List ScopeFrame}
    (hstack : thread.stack = frame :: rest) : thread.ambient = frame.entered := by
  have hnested := horderly.nested
  rw [hstack] at hnested
  exact hnested.1

theorem push (horderly : thread.Orderly setup base) {activity : Activity} {after : Ambient}
    (hsound : ScopeFrame.Sound setup ⟨activity, thread.ambient, after⟩) :
    (thread.push activity after).Orderly setup base where
  nested := horderly.nested.start activity after
  sound frame hmem := by
    rcases List.mem_cons.mp hmem with rfl | hmem
    · exact hsound
    · exact horderly.sound frame hmem
  queued := horderly.queued

/-- What is no scope begins with what is there. -/
theorem pushSame (horderly : thread.Orderly setup base) {activity : Activity}
    (hscope : ∀ opening scope, activity ≠ .scope opening scope)
    (hclosing : ∀ opening scope, activity ≠ .closing opening scope) :
    (thread.push activity thread.ambient).Orderly setup base := by
  apply horderly.push
  unfold ScopeFrame.Sound
  split
  next opening scope heq => exact absurd heq (hscope opening scope)
  next opening scope heq => exact absurd heq (hclosing opening scope)
  next => rfl

theorem construct (horderly : thread.Orderly setup base) (opening : Opening) :
    (thread.construct setup opening).Orderly setup base :=
  horderly.push rfl

theorem pop (horderly : thread.Orderly setup base) {frame : ScopeFrame} {rest : List ScopeFrame}
    {after : Ambient} (hstack : thread.stack = frame :: rest) (hafter : after = frame.opened) :
    (thread.pop after).Orderly setup base where
  nested := by
    have hnested := horderly.nested
    rw [hstack] at hnested
    rw [Thread.pop, hstack]
    exact hnested.bracketing (.finish hafter)
  sound other hmem := horderly.sound other (List.mem_of_mem_tail hmem)
  queued := horderly.queued

theorem advance (horderly : thread.Orderly setup base) {frame : ScopeFrame} {rest : List ScopeFrame}
    {activity : Activity} {after : Ambient} (hstack : thread.stack = frame :: rest)
    (hsound : ScopeFrame.Sound setup ⟨activity, frame.opened, after⟩) :
    (thread.advance frame activity after).Orderly setup base where
  nested := by
    have hnested := horderly.nested
    rw [hstack] at hnested
    rw [Thread.advance, hstack]
    exact hnested.bracketing (.advance rfl rfl)
  sound other hmem := by
    rcases List.mem_cons.mp hmem with rfl | hmem
    · exact hsound
    · exact horderly.sound other (List.mem_of_mem_tail hmem)
  queued := horderly.queued

/-- A scope that is left puts back what was there when it was opened. -/
theorem restore_eq (horderly : thread.Orderly setup base) {frame : ScopeFrame}
    {rest : List ScopeFrame}
    {opening : Opening} {scope : Scope} (hstack : thread.stack = frame :: rest)
    (hactivity : frame.activity = .scope opening scope ∨
      (frame.activity = .closing opening scope ∧ ∀ id prev, scope ≠ .tryCatch id prev)) :
    scope.restore thread.ambient = frame.opened := by
  have hsound := horderly.sound frame (by rw [hstack]; exact List.mem_cons_self)
  rw [horderly.ambient_eq hstack]
  exact Setup.restore_of_construct (hsound.restore hactivity)

/-- What opens no scope, and a `TryCatch` that has put back, leave the same. -/
theorem opened_eq (horderly : thread.Orderly setup base) {frame : ScopeFrame}
    {rest : List ScopeFrame}
    (hstack : thread.stack = frame :: rest)
    (hactivity : (∃ opening id prev, frame.activity = .closing opening (.tryCatch id prev)) ∨
      ((∀ opening scope, frame.activity ≠ .scope opening scope) ∧
        ∀ opening scope, frame.activity ≠ .closing opening scope)) :
    thread.ambient = frame.opened := by
  have hsound := horderly.sound frame (by rw [hstack]; exact List.mem_cons_self)
  rw [horderly.ambient_eq hstack]
  unfold ScopeFrame.Sound at hsound
  rcases hactivity with ⟨opening, id, prev, hactivity⟩ | ⟨hscope, hclosing⟩
  · rw [hactivity] at hsound
    exact hsound.2
  · split at hsound
    next opening scope heq => exact absurd heq (hscope opening scope)
    next opening scope heq => exact absurd heq (hclosing opening scope)
    next => exact hsound

theorem enqueueJob (horderly : thread.Orderly setup base) (job : Job) :
    (thread.enqueueJob setup job).Orderly setup base where
  nested := horderly.nested
  sound := horderly.sound
  queued runtime := by
    simp only [Thread.enqueueJob]
    by_cases heq : runtime = setup.engineOf job.ctx
    · rw [heq, Function.update_self, Function.update_self, horderly.queued, List.append_assoc]
    · rw [Function.update_of_ne heq, Function.update_of_ne heq, horderly.queued]

/-- A job leaves the queue before it runs. -/
theorem executePendingJob (horderly : thread.Orderly setup base) {runtime : Nat} {job : Job}
    {rest : List Job} (hjobs : thread.jobs runtime = job :: rest) :
    (thread.executePendingJob runtime job rest).Orderly setup base := by
  have hready : Orderly setup base { thread with
      jobs := Function.update thread.jobs runtime rest
      ran := Function.update thread.ran runtime (thread.ran runtime ++ [job]) } := by
    refine ⟨horderly.nested, horderly.sound, fun other => ?_⟩
    dsimp only
    by_cases heq : other = runtime
    · rw [heq, Function.update_self, Function.update_self, horderly.queued, hjobs,
        List.append_assoc]
      rfl
    · rw [Function.update_of_ne heq, Function.update_of_ne heq, horderly.queued]
  have hscope : ∀ opening scope, Activity.job job ≠ .scope opening scope := by simp
  exact hready.pushSame hscope (by simp)

theorem constructAll (horderly : thread.Orderly setup base) (openings : List Opening) :
    (thread.constructAll setup openings).Orderly setup base := by
  induction openings generalizing thread with
  | nil => exact horderly
  | cons opening rest ih => exact ih (horderly.construct opening)

theorem enter (horderly : thread.Orderly setup base) (entry : Entry) (address : Nat) :
    (thread.enter setup entry address).Orderly setup base :=
  ((horderly.pushSame (by simp) (by simp)).constructAll _).pushSame (by simp) (by simp)

theorem transition (horderly : thread.Orderly setup base)
    (hnext : ThreadTransition setup thread action next) :
    next.Orderly setup base := by
  cases hnext with
  | construct opening => exact horderly.construct opening
  | close hstack hactivity =>
      exact horderly.pop hstack (horderly.restore_eq hstack (.inl hactivity))
  | @begin frame rest opening scope hstack hactivity hscope hnew =>
      refine horderly.advance hstack ?_
      have hsound := horderly.sound frame (by rw [hstack]; exact List.mem_cons_self)
      have hconstruct := hsound.restore (.inl hactivity)
      rw [← horderly.ambient_eq hstack] at hconstruct
      cases scope with
      | tryCatch id prev => exact absurd rfl (hscope id prev)
      | isolate => exact hconstruct
      | context id enterNew prev =>
          cases enterNew with
          | true => exact ⟨rfl, hconstruct⟩
          | false => exact absurd rfl (hnew id prev)
      | handle => exact hconstruct
  | @beginTryCatch frame rest opening id prev hstack hactivity =>
      have hsound := horderly.sound frame (by rw [hstack]; exact List.mem_cons_self)
      exact horderly.advance hstack ⟨Setup.tryCatch_of_construct (hsound.restore (.inl hactivity)),
        horderly.restore_eq hstack (.inl hactivity)⟩
  | runJob _ _ hjobs => exact horderly.executePendingJob hjobs
  | finish hstack hactivity hscope hjobs =>
      exact horderly.pop hstack (horderly.restore_eq hstack (.inr ⟨hactivity, hscope⟩))
  | finishTryCatch hstack hactivity =>
      exact horderly.pop hstack (horderly.opened_eq hstack (.inl ⟨_, _, _, hactivity⟩))
  | enqueueJob job => exact horderly.enqueueJob job
  | done _ hstack hscope hclosing =>
      exact horderly.pop hstack (horderly.opened_eq hstack (.inr ⟨hscope, hclosing⟩))
  | enter entry address => exact horderly.enter entry address

theorem step (horderly : thread.Orderly setup base)
    (hstep : Thread.step setup thread action = .ok next) :
    next.Orderly setup base :=
  horderly.transition (transition_of_step hstep)

end Orderly

theorem follows_of_nested {ambient : Ambient} {stack : List ScopeFrame}
    (hnested : Nested base ambient stack) (hsound : ∀ frame ∈ stack, frame.Sound setup) :
    Follows setup base ambient stack := by
  induction stack generalizing ambient with
  | nil =>
      cases hnested
      exact ⟨rfl, fun _ => rfl⟩
  | cons frame rest ih =>
      obtain ⟨rfl, hrest⟩ := hnested
      have hfollows := ih hrest fun other hmem => hsound other (List.mem_cons_of_mem frame hmem)
      have hframe := hsound frame List.mem_cons_self
      unfold ScopeFrame.Sound at hframe
      split at hframe
      next opening scope hactivity =>
        exact hfollows.construct (by rw [hactivity]; rfl) hframe
      next opening scope hactivity =>
        have hopening : frame.activity.opening = some opening := by rw [hactivity]; rfl
        split at hframe
        next =>
          obtain ⟨htryCatch, hsame⟩ := hframe
          rw [hsame]
          refine hfollows.same fun other hother => ?_
          cases hopening.symm.trans hother
          exact htryCatch
        next => exact hfollows.construct hopening hframe.2
        next => exact hfollows.construct hopening hframe
      next hscope hclosing =>
        rw [hframe]
        refine hfollows.same fun other hother => ?_
        cases hactivity : frame.activity with
        | scope opening scope => exact absurd hactivity (hscope opening scope)
        | closing opening scope => exact absurd hactivity (hclosing opening scope)
        | job => rw [hactivity] at hother; cases hother
        | wrapper => rw [hactivity] at hother; cases hother
        | callback => rw [hactivity] at hother; cases hother

end Thread

end QuickjsBackend
