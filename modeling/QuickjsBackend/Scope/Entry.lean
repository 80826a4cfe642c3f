import QuickjsBackend.Scope.Restoration

/-! # The scopes a callback runs in

The wrappers of functions, constructors, getters and setters open no scope, the
promise rejection callback enters the isolate but not the context, and the finalizer
enters the isolate. What is current in the callback beyond that is what the scopes
around the engine call have made current: the innermost `Isolate::Scope`, and for
each isolate the innermost `Context::Scope`.
-/

namespace QuickjsBackend

open Foundation

namespace Entry

variable (setup : Setup) (entry : Entry)

/-- The `JSContext` that the callback is called with. -/
def ctx : Option Nat :=
  match entry with
  | .function ctx => some ctx
  | .constructor ctx => some ctx
  | .getter ctx => some ctx
  | .setter ctx => some ctx
  | .promiseReject ctx => some ctx
  | .weak _ => none

/-- The runtime that runs the callback. -/
def runtime : Nat :=
  match entry with
  | .function ctx => setup.engineOf ctx
  | .constructor ctx => setup.engineOf ctx
  | .getter ctx => setup.engineOf ctx
  | .setter ctx => setup.engineOf ctx
  | .promiseReject ctx => setup.engineOf ctx
  | .weak runtime => runtime

/-- The isolate that the wrapper enters. -/
def entersIsolate : Option Nat :=
  match entry with
  | .promiseReject ctx => some (setup.isolateOf (setup.contextOf ctx))
  | .weak runtime => some (setup.ownerOf runtime)
  | _ => none

end Entry

/-- The isolate that owns the runtime is current, and the context of the `JSContext`
is the current one of this isolate. -/
def Ambient.Serves (setup : Setup) (ambient : Ambient) (entry : Entry) : Prop :=
  ambient.current = some (setup.ownerOf (entry.runtime setup)) ∧
    ∀ ctx, entry.ctx = some ctx →
      ambient.context (setup.ownerOf (entry.runtime setup)) = some (setup.contextOf ctx)

namespace Thread

variable {setup : Setup} {base : Ambient} {thread next : Thread} {action : ThreadAction}

/-- Each callback runs with its isolate and its context current, and when it returns
they are what they were before. -/
def CallsBack (setup : Setup) (thread : Thread) (_ : ThreadAction)
    (outcome : Except ThreadFault Thread) : Prop :=
  ∀ next, outcome = .ok next →
    (∀ frame rest entry, next.stack = frame :: rest → frame.activity = .callback entry →
      next.ambient.Serves setup entry) ∧
    ∀ frame rest entry, thread.stack = frame :: rest → next.stack = rest →
      frame.activity = .callback entry ∨ frame.activity = .wrapper entry →
        next.ambient.current = frame.opened.current ∧ next.ambient.context = frame.opened.context

/-- The scopes around the call are for the owner of the runtime and for the context
of the callback, except as far as the wrapper enters the isolate by itself. -/
def EntersInContext (setup : Setup) (base : Ambient) (thread : Thread) (action : ThreadAction) :
    Prop :=
  ∀ entry address, action = .enter entry address →
    (entry.entersIsolate setup).or (enteredIsolate base thread.stack) =
        some (setup.ownerOf (entry.runtime setup)) ∧
      ∀ ctx, entry.ctx = some ctx →
        enteredContext setup base (setup.ownerOf (entry.runtime setup)) thread.stack =
          some (setup.contextOf ctx)

/-- Callbacks were called with their isolate and their context current. -/
structure Serving (setup : Setup) (base : Ambient) (thread : Thread) : Prop
    extends thread.Orderly setup base where
  serves : ∀ frame ∈ thread.stack, ∀ entry, frame.activity = .callback entry →
    frame.entered.Serves setup entry

/-- The wrapper's part of what is current in the callback. -/
theorem enter_ambient (setup : Setup) (thread : Thread) (entry : Entry) (address : Nat) :
    (thread.enter setup entry address).ambient.current =
        (entry.entersIsolate setup).or thread.ambient.current ∧
      (thread.enter setup entry address).ambient.context = thread.ambient.context := by
  cases entry <;> exact ⟨rfl, rfl⟩

theorem Orderly.serves_enter_iff (horderly : thread.Orderly setup base) (entry : Entry)
    (address : Nat) :
    (thread.enter setup entry address).ambient.Serves setup entry ↔
      thread.EntersInContext setup base (.enter entry address) := by
  obtain ⟨hcurrent, hcontext⟩ := enter_ambient setup thread entry address
  have hfollows := follows_of_nested horderly.nested horderly.sound
  rw [Ambient.Serves, hcurrent, hcontext, hfollows.current, hfollows.context]
  constructor
  · intro hserves other _ heq
    cases heq
    exact hserves
  · intro henters
    exact henters entry address rfl

theorem mem_constructAll (openings : List Opening) {frame : ScopeFrame}
    (hmem : frame ∈ (thread.constructAll setup openings).stack) :
    frame ∈ thread.stack ∨ ∃ opening scope, frame.activity = .scope opening scope := by
  induction openings generalizing thread with
  | nil => exact .inl hmem
  | cons opening rest ih =>
      rcases ih hmem with hmem | hscope
      · rcases List.mem_cons.mp hmem with rfl | hmem
        · exact .inr ⟨_, _, rfl⟩
        · exact .inl hmem
      · exact .inr hscope

/-- Frames of callbacks come from calls of the engine. -/
theorem mem_of_callback (hnext : ThreadTransition setup thread action next)
    {frame : ScopeFrame} {entry : Entry} (hmem : frame ∈ next.stack)
    (hcallback : frame.activity = .callback entry) :
    frame ∈ thread.stack ∨ (∃ address, action = .enter entry address) ∧
      frame.entered = next.ambient := by
  cases hnext with
  | construct opening =>
      rcases List.mem_cons.mp hmem with rfl | hmem
      · cases hcallback
      · exact .inl hmem
  | close => exact .inl (List.mem_of_mem_tail hmem)
  | begin =>
      rcases List.mem_cons.mp hmem with rfl | hmem
      · cases hcallback
      · exact .inl (List.mem_of_mem_tail hmem)
  | beginTryCatch =>
      rcases List.mem_cons.mp hmem with rfl | hmem
      · cases hcallback
      · exact .inl (List.mem_of_mem_tail hmem)
  | runJob =>
      rcases List.mem_cons.mp hmem with rfl | hmem
      · cases hcallback
      · exact .inl hmem
  | finish => exact .inl (List.mem_of_mem_tail hmem)
  | finishTryCatch => exact .inl (List.mem_of_mem_tail hmem)
  | enqueueJob job => exact .inl hmem
  | done => exact .inl (List.mem_of_mem_tail hmem)
  | enter other address =>
      rcases List.mem_cons.mp hmem with rfl | hmem
      · cases hcallback
        exact .inr ⟨⟨address, rfl⟩, rfl⟩
      · rcases mem_constructAll _ hmem with hmem | ⟨opening, scope, hscope⟩
        · rcases List.mem_cons.mp hmem with rfl | hmem
          · cases hcallback
          · exact .inl hmem
        · rw [hscope] at hcallback
          cases hcallback

namespace Serving

theorem idle (ambient : Ambient) (jobs : Nat → List Job) :
    (Thread.idle ambient jobs).Serving setup ambient where
  toOrderly := orderly_idle ambient jobs
  serves _ hmem := nomatch hmem

theorem step (hserving : thread.Serving setup base)
    (henters : thread.EntersInContext setup base action)
    (hstep : Thread.step setup thread action = .ok next) : next.Serving setup base where
  toOrderly := hserving.toOrderly.step hstep
  serves frame hmem entry hcallback := by
    rcases mem_of_callback (transition_of_step hstep) hmem hcallback with
      hmem | ⟨⟨address, rfl⟩, heq⟩
    · exact hserving.serves frame hmem entry hcallback
    · cases hstep
      rw [heq]
      exact (hserving.toOrderly.serves_enter_iff entry address).mpr henters

theorem callsBack_iff (hserving : thread.Serving setup base) :
    CallsBack setup thread action (Thread.step setup thread action) ↔
      thread.EntersInContext setup base action := by
  constructor
  · rintro hcalls entry address rfl
    obtain ⟨hserves, _⟩ := hcalls (thread.enter setup entry address) rfl
    exact (hserving.toOrderly.serves_enter_iff entry address).mp (hserves _ _ entry rfl rfl)
      entry address rfl
  · intro henters next hstep
    have hnext := hserving.step henters hstep
    refine ⟨fun frame rest entry hstack hcallback => ?_, fun frame rest entry hstack hrest _ => ?_⟩
    · rw [hnext.toOrderly.ambient_eq hstack]
      exact hnext.serves frame (by rw [hstack]; exact List.mem_cons_self) entry hcallback
    · obtain ⟨hsame, _⟩ := hserving.toOrderly.left (transition_of_step hstep) hstack hrest
      exact ⟨congrArg Ambient.current hsame, congrArg Ambient.context hsame⟩

end Serving

/-- In every run, from every state of the scopes, callbacks run with their isolate and
context current exactly as long as the innermost scopes around each call are those of
the owner and of the context, the isolate's aside where the wrapper enters it. -/
theorem callsBack_iff_entersInContext (setup : Setup) (ambient : Ambient) (jobs : Nat → List Job)
    (actions : List ThreadAction) :
    (Thread.step setup).Always (CallsBack setup) (idle ambient jobs) actions ↔
      (Thread.step setup).Always
        (fun thread action _ => thread.EntersInContext setup ambient action)
        (idle ambient jobs) actions :=
  (Thread.step setup).always_iff_of_invariant (Serving setup ambient)
    (fun _ _ hserving => hserving.callsBack_iff)
    (fun _ _ _ hserving henters hstep => hserving.step henters hstep) actions (.idle ambient jobs)

/-- A function of context 1 is called in a scope of context 0. -/
theorem function_in_other_context :
    ¬ (Thread.step .single).Always (CallsBack .single) (idle .outside fun _ => [])
      [.construct (.isolate 0), .construct (.context 0), .enter (.function 1) 0] := by
  intro hcalls
  have hlast := (Thread.step .single).always_iff_forall_reached.mp hcalls
    [.construct (.isolate 0), .construct (.context 0)] (.enter (.function 1) 0) [] _ rfl rfl
  obtain ⟨hserves, _⟩ := hlast _ rfl
  obtain ⟨_, hcontext⟩ := hserves _ _ (.function 1) rfl rfl
  have hwrong := hcontext 1 rfl
  revert hwrong
  decide

end Thread

end QuickjsBackend
