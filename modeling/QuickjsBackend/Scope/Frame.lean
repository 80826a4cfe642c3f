import Mathlib.Logic.Function.Basic
import QuickjsBackend.Foundation.Bracket
import QuickjsBackend.Foundation.Run

/-! # Scopes on the native stack

`Isolate::Scope`, `Context::Scope`, `HandleScope` and `TryCatch` keep in themselves
what their constructors replace. The native stack holds the scopes that are open,
those whose destructors are at work, the jobs these run, and the callbacks that the
engine has called. A job's work, the release of handles and the embedder's callbacks
are whatever happens before the frame is left again.
-/

namespace QuickjsBackend

open Foundation

/-- Which isolates, contexts and runtimes belong together. -/
structure Setup where
  -- `Isolate::runtime_`
  runtimeOf : Nat → Nat
  -- `Context::isolate_`
  isolateOf : Nat → Nat
  -- `JS_GetContextOpaque` of a `JSContext`
  contextOf : Nat → Nat
  -- `rt` of a `JSContext`
  engineOf : Nat → Nat
  -- `JS_GetRuntimeOpaque`
  ownerOf : Nat → Nat

/-- One isolate, and one `JSContext` for each context. -/
def Setup.single : Setup where
  runtimeOf _ := 0
  isolateOf _ := 0
  contextOf ctx := ctx
  engineOf _ := 0
  ownerOf _ := 0

/-- What scopes replace and put back. -/
structure Ambient where
  -- `Isolate::current_`
  current : Option Nat
  -- `current_context_` of each isolate
  context : Nat → Option Nat
  -- `currentHandleScope` of each isolate
  handleScope : Nat → Option Nat
  -- `currentTryCatch_` of each isolate
  tryCatch : Nat → Option Nat

/-- No isolate has been entered. -/
def Ambient.outside : Ambient where
  current := none
  context _ := none
  handleScope _ := none
  tryCatch _ := none

/-- A scope with the arguments of its constructor; the address is its own. -/
inductive Opening
  | isolate (isolate : Nat)
  | context (context : Nat)
  | handle (isolate address : Nat)
  | tryCatch (isolate address : Nat)
  deriving DecidableEq, Repr

/-- The members of a scope. -/
inductive Scope
  | isolate (prevIsolate : Option Nat)
  | context (isolate : Nat) (enterNew : Bool) (prevContext : Option Nat)
  | handle (isolate : Nat) (prevScope : Option Nat)
  | tryCatch (isolate : Nat) (prev : Option Nat)
  deriving DecidableEq, Repr

structure Job where
  -- the `JSContext` it runs in
  ctx : Nat
  work : Nat
  deriving DecidableEq, Repr

/-- How the engine comes to native code: with a `JSContext`, or with a runtime from
the finalizer of an object. -/
inductive Entry
  | function (ctx : Nat)
  | constructor (ctx : Nat)
  | getter (ctx : Nat)
  | setter (ctx : Nat)
  | promiseReject (ctx : Nat)
  | weak (runtime : Nat)
  deriving DecidableEq, Repr

inductive Activity
  | scope (opening : Opening) (scope : Scope)
  -- the destructor has begun
  | closing (opening : Opening) (scope : Scope)
  | job (job : Job)
  -- what the engine calls, around the embedder's callback
  | wrapper (entry : Entry)
  | callback (entry : Entry)
  deriving DecidableEq, Repr

abbrev ScopeFrame := Enclosure Activity Ambient

structure Thread where
  ambient : Ambient
  -- `job_list` of each runtime
  jobs : Nat → List Job
  stack : List ScopeFrame
  -- proof-facing: the jobs that were added to and taken from `job_list`
  enqueued : Nat → List Job
  ran : Nat → List Job

inductive ThreadFault
  -- not the innermost frame
  | misnested
  | nullDeref
  deriving DecidableEq, Repr

inductive ThreadAction
  | construct (opening : Opening)
  -- the destructor of the innermost scope begins, or goes on
  | destruct
  | proceed
  | enqueueJob (ctx work : Nat)
  | finishJob
  | enter (entry : Entry) (address : Nat)
  | leave
  | exit
  deriving DecidableEq, Repr

/-- The destructor puts back what the constructor has replaced. -/
def Scope.restore (scope : Scope) (ambient : Ambient) : Ambient :=
  match scope with
  | .isolate prevIsolate => { ambient with current := prevIsolate }
  | .context id enterNew prevContext =>
      if enterNew then
        { ambient with context := Function.update ambient.context id prevContext }
      else ambient
  | .handle id prevScope =>
      { ambient with handleScope := Function.update ambient.handleScope id prevScope }
  | .tryCatch id prev => { ambient with tryCatch := Function.update ambient.tryCatch id prev }

namespace Setup

variable (setup : Setup)

/-- The constructors. -/
def construct (ambient : Ambient) : Opening → Scope × Ambient
  | .isolate isolate => (.isolate ambient.current, { ambient with current := some isolate })
  | .context context =>
      let isolate := setup.isolateOf context
      if some context ≠ ambient.context isolate then
        (.context isolate true (ambient.context isolate),
          { ambient with context := Function.update ambient.context isolate (some context) })
      else (.context isolate false none, ambient)
  | .handle isolate address =>
      (.handle isolate (ambient.handleScope isolate),
        { ambient with handleScope := Function.update ambient.handleScope isolate (some address) })
  | .tryCatch isolate address =>
      (.tryCatch isolate (ambient.tryCatch isolate),
        { ambient with tryCatch := Function.update ambient.tryCatch isolate (some address) })

/-- The scopes that the wrappers open. The third line of the promise rejection
callback declares a function and opens none. -/
def openings (address : Nat) : Entry → List Opening
  | .function _ => []
  | .constructor _ => []
  | .getter _ => []
  | .setter _ => []
  | .promiseReject ctx =>
      [.isolate (setup.isolateOf (setup.contextOf ctx)),
        .handle (setup.isolateOf (setup.contextOf ctx)) address]
  | .weak runtime => [.isolate (setup.ownerOf runtime)]

end Setup

namespace Thread

variable (setup : Setup) (thread : Thread)

def push (activity : Activity) (after : Ambient) : Thread :=
  { thread with
    ambient := after
    stack := ⟨activity, thread.ambient, after⟩ :: thread.stack }

def pop (after : Ambient) : Thread := { thread with ambient := after, stack := thread.stack.tail }

/-- The innermost frame goes on as another activity. -/
def advance (frame : ScopeFrame) (activity : Activity) (after : Ambient) : Thread :=
  { thread with
    ambient := after
    stack := ⟨activity, frame.opened, after⟩ :: thread.stack.tail }

def construct (opening : Opening) : Thread :=
  let (scope, after) := setup.construct thread.ambient opening
  thread.push (.scope opening scope) after

/-- The destructors, to where they run other code. `~TryCatch` reads `context_` of the
current context. -/
def destruct (frame : ScopeFrame) (opening : Opening) (scope : Scope) : Except ThreadFault Thread :=
  match scope with
  | .isolate _ => .ok (thread.pop (scope.restore thread.ambient))
  | .context _ enterNew _ =>
      if enterNew then .ok (thread.advance frame (.closing opening scope) thread.ambient)
      else .ok (thread.pop thread.ambient)
  | .handle _ _ => .ok (thread.advance frame (.closing opening scope) thread.ambient)
  | .tryCatch isolate _ =>
      let after := scope.restore thread.ambient
      match after.context isolate with
      | none => .error .nullDeref
      | some _ => .ok (thread.advance frame (.closing opening scope) after)

/-- `JS_EnqueueJob`. -/
def enqueueJob (job : Job) : Thread :=
  let runtime := setup.engineOf job.ctx
  { thread with
    jobs := Function.update thread.jobs runtime (thread.jobs runtime ++ [job])
    enqueued := Function.update thread.enqueued runtime (thread.enqueued runtime ++ [job]) }

/-- `JS_ExecutePendingJob`, to where it calls the job. -/
def executePendingJob (runtime : Nat) (job : Job) (rest : List Job) : Thread :=
  Thread.push
    { thread with
      jobs := Function.update thread.jobs runtime rest
      ran := Function.update thread.ran runtime (thread.ran runtime ++ [job]) }
    (.job job) thread.ambient

/-- The destructors, from where the code they ran has returned. -/
def proceed (scope : Scope) : Thread :=
  match scope with
  | .context isolate _ _ =>
      match thread.jobs (setup.runtimeOf isolate) with
      | job :: rest => thread.executePendingJob (setup.runtimeOf isolate) job rest
      | [] => thread.pop (scope.restore thread.ambient)
  | .tryCatch _ _ => thread.pop thread.ambient
  | .isolate _ => thread.pop (scope.restore thread.ambient)
  | .handle _ _ => thread.pop (scope.restore thread.ambient)

def constructAll (openings : List Opening) : Thread :=
  openings.foldl (fun thread opening => thread.construct setup opening) thread

/-- A wrapper, to where it calls the callback. -/
def enter (entry : Entry) (address : Nat) : Thread :=
  let opened := (thread.push (.wrapper entry) thread.ambient).constructAll setup
    (setup.openings address entry)
  opened.push (.callback entry) opened.ambient

/-- One step of the native code. -/
def step : StepFn Thread ThreadAction ThreadFault := fun thread action =>
  match action, thread.stack with
  | .construct opening, _ => .ok (thread.construct setup opening)
  | .destruct, ⟨.scope opening scope, opened, entered⟩ :: _ =>
      thread.destruct ⟨.scope opening scope, opened, entered⟩ opening scope
  | .proceed, ⟨.closing _ scope, _, _⟩ :: _ => .ok (thread.proceed setup scope)
  | .enqueueJob ctx work, _ => .ok (thread.enqueueJob setup ⟨ctx, work⟩)
  | .finishJob, ⟨.job _, _, _⟩ :: _ => .ok (thread.pop thread.ambient)
  | .enter entry address, _ => .ok (thread.enter setup entry address)
  | .leave, ⟨.callback _, _, _⟩ :: _ => .ok (thread.pop thread.ambient)
  | .exit, ⟨.wrapper _, _, _⟩ :: _ => .ok (thread.pop thread.ambient)
  | _, _ => .error .misnested

/-- No scope is open. -/
def idle (ambient : Ambient) (jobs : Nat → List Job) : Thread where
  ambient := ambient
  jobs := jobs
  stack := []
  enqueued := jobs
  ran := fun _ => []

end Thread

end QuickjsBackend
