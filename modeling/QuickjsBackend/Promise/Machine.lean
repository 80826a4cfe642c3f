import QuickjsBackend.Callback.Wrapper
import QuickjsBackend.Foundation.Run

/-! # Promises and jobs

Scripts make promises, call the resolving functions and add reactions, and the engine
calls scripts in turn: executors, handlers, getters of `then`, the rejection tracker. A
step is what happens between two points where a script is at work; what the engine does
when that script returns is a frame.
-/

namespace QuickjsBackend

open Foundation

/-- `JSPromiseStateEnum`. -/
inductive PromiseStateEnum
  | pending
  | fulfilled
  | rejected
  deriving DecidableEq, Repr

/-- `JS_PROMISE_FULFILLED + is_reject`. -/
def PromiseStateEnum.settled (isReject : Bool) : PromiseStateEnum :=
  if isReject then .rejected else .fulfilled

/-- `JSPromiseReactionData`. -/
structure PromiseReactionData where
  resolvingFuncs : JSValue × JSValue
  handler : JSValue
  -- proof-facing: which call of `perform_promise_then` added it
  registration : Nat
  deriving DecidableEq, Repr

/-- `JSPromiseData`. -/
structure PromiseData where
  promiseState : PromiseStateEnum
  -- by `is_reject`
  promiseReactions : Bool → List PromiseReactionData
  isHandled : Bool
  promiseResult : JSValue

/-- `JSPromiseFunctionDataResolved`, shared by two resolving functions. -/
structure PromiseFunctionDataResolved where
  alreadyResolved : Bool
  -- proof-facing
  promise : Ptr
  deriving DecidableEq, Repr

/-- `JSPromiseFunctionData`, with the class of the function. -/
structure PromiseFunctionData where
  promise : Ptr
  -- an index of the records
  presolved : Nat
  isReject : Bool
  deriving DecidableEq, Repr

/-- The jobs of promises with their arguments. -/
inductive PromiseJob
  | reaction (reaction : PromiseReactionData) (isReject : Bool) (arg : JSValue)
  | resolveThenable (promise : Ptr) (thenable then_ : JSValue)
  deriving DecidableEq, Repr

/-- What the engine goes on with when the script that it called has returned. -/
inductive PromiseFrame
  -- `js_promise_resolve_function_call` has asked for `then`
  | resolve (promise : Ptr) (resolution : JSValue)
  -- `fulfill_or_reject_promise` has called the tracker
  | reject (promise : Ptr) (value : JSValue)
  -- `perform_promise_then` has called the tracker
  | subscribe (promise : Ptr) (resolvingFuncs : JSValue × JSValue)
      (onFulfilled onRejected : JSValue)
  -- `promise_reaction_job` has called the handler
  | reaction (resolvingFuncs : JSValue × JSValue)
  -- `js_promise_constructor` and `js_promise_resolve_thenable_job` reject on an exception
  | rejectOnThrow (reject : JSValue)
  | discard
  deriving DecidableEq, Repr

/-- A call of the host's tracker. -/
structure RejectionReport where
  promise : Ptr
  reason : JSValue
  isHandled : Bool
  deriving DecidableEq, Repr

/-- A reaction job that was begun. -/
structure RanReaction where
  registration : Nat
  isReject : Bool
  arg : JSValue
  deriving DecidableEq, Repr

structure PromiseRuntime where
  promises : Ptr → Option PromiseData
  functions : Ptr → Option PromiseFunctionData
  resolved : List PromiseFunctionDataResolved
  -- addresses are not used again
  created : Ptr
  jobList : List PromiseJob
  -- whether `host_promise_rejection_tracker` is set
  tracker : Bool
  frames : List PromiseFrame
  -- proof-facing: the calls of the tracker, the promises of the reactions in the order
  -- in which they were added, and the reactions in the order in which they ran
  reports : List RejectionReport
  registered : List Ptr
  ran : List RanReaction

/-- What a script that is at work does next. -/
inductive PromiseAction
  | setTracker (installed : Bool)
  | newPromise
  | call (func arg : JSValue)
  | then_ (promise : Ptr) (onFulfilled onRejected : JSValue) (resolvingFuncs : JSValue × JSValue)
  -- a `Context::Scope` ends, on whatever stack
  | executePendingJob
  -- the script that the engine has called last returns
  | complete (completion : Completion)
  deriving DecidableEq, Repr

inductive PromiseFault
  | noCaller
  deriving DecidableEq, Repr

namespace PromiseRuntime

def new : PromiseRuntime where
  promises _ := none
  functions _ := none
  resolved := []
  created := 0
  jobList := []
  tracker := false
  frames := []
  reports := []
  registered := []
  ran := []

section Definitions

variable (rt : PromiseRuntime)

def setPromise (promise : Ptr) (s : PromiseData) : PromiseRuntime :=
  { rt with promises := Function.update rt.promises promise (some s) }

def push (frame : PromiseFrame) : PromiseRuntime :=
  { rt with frames := frame :: rt.frames }

/-- `JS_EnqueueJob`. -/
def enqueueJob (job : PromiseJob) : PromiseRuntime :=
  { rt with jobList := rt.jobList ++ [job] }

/-- The loops at the end of `fulfill_or_reject_promise`: one list of reactions becomes
jobs, the other is freed. -/
def flushReactions (promise : Ptr) (value : JSValue) (isReject : Bool) : PromiseRuntime :=
  match rt.promises promise with
  | none => rt
  | some s =>
      { rt.setPromise promise { s with promiseReactions := fun _ => [] } with
        jobList := rt.jobList ++
          (s.promiseReactions isReject).map fun rd => .reaction rd isReject value }

/-- `fulfill_or_reject_promise`. -/
def fulfillOrRejectPromise (promise : Ptr) (value : JSValue) (isReject : Bool) :
    PromiseRuntime :=
  match rt.promises promise with
  | none => rt
  | some s =>
      if s.promiseState ≠ .pending then rt
      else
        let rt := rt.setPromise promise { s with
          promiseResult := value, promiseState := .settled isReject }
        if isReject ∧ s.isHandled = false ∧ rt.tracker then
          { rt.push (.reject promise value) with
            reports := rt.reports ++ [⟨promise, value, false⟩] }
        else rt.flushReactions promise value isReject

/-- The resolving functions that the next call of `js_create_resolving_functions` makes. -/
def nextResolvingFunctions : JSValue × JSValue :=
  (.ref .object rt.created, .ref .object (rt.created + 1))

/-- `js_create_resolving_functions`. -/
def createResolvingFunctions (promise : Ptr) : PromiseRuntime :=
  { rt with
    functions := Function.update (Function.update rt.functions rt.created
        (some ⟨promise, rt.resolved.length, false⟩)) (rt.created + 1)
      (some ⟨promise, rt.resolved.length, true⟩)
    resolved := rt.resolved ++ [⟨false, promise⟩]
    created := rt.created + 2 }

/-- `js_promise_constructor` up to the call of the executor. -/
def newPromise : PromiseRuntime :=
  let promise := rt.created
  let rt := { rt.setPromise promise
      { promiseState := .pending
        promiseReactions := fun _ => []
        isHandled := false
        promiseResult := .undefined } with
    created := rt.created + 1 }
  (rt.createResolvingFunctions promise).push (.rejectOnThrow rt.nextResolvingFunctions.2)

/-- `js_promise_resolve_function_call` up to the property lookup; the `TypeError` of a
self resolution is a new object. -/
def resolveFunctionCall (s : PromiseFunctionData) (resolution : JSValue) : PromiseRuntime :=
  match rt.resolved[s.presolved]? with
  | none => rt
  | some presolved =>
      if presolved.alreadyResolved then rt
      else
        let rt := { rt with
          resolved := rt.resolved.set s.presolved { presolved with alreadyResolved := true } }
        match s.isReject, resolution with
        | false, .ref .object ptr =>
            if ptr = s.promise then
              { rt with created := rt.created + 1 }.fulfillOrRejectPromise s.promise
                (.ref .object rt.created) true
            else rt.push (.resolve s.promise resolution)
        | isReject, resolution => rt.fulfillOrRejectPromise s.promise resolution isReject

/-- `JS_Call`: a resolving function is at work at once, another function is a script, and
what is no object cannot be called. -/
def callFunction (func arg : JSValue) : PromiseRuntime :=
  match func with
  | .ref .object ptr =>
      match rt.functions ptr with
      | some s => rt.resolveFunctionCall s arg
      | none => rt.push .discard
  | _ => rt

variable (isFunction : JSValue → Bool)

/-- A handler as it is kept. -/
def handlerOf (handler : JSValue) : JSValue :=
  if isFunction handler then handler else .undefined

/-- `perform_promise_then` from the look at the state on, after the tracker. -/
def subscribe (promise : Ptr) (resolvingFuncs : JSValue × JSValue)
    (onFulfilled onRejected : JSValue) : PromiseRuntime :=
  match rt.promises promise with
  | none => rt
  | some s =>
      let rdArray (isReject : Bool) : PromiseReactionData :=
        ⟨resolvingFuncs, if isReject then onRejected else onFulfilled, rt.registered.length⟩
      if s.promiseState = .pending then
        { rt.setPromise promise { s with
            promiseReactions := fun isReject => s.promiseReactions isReject ++ [rdArray isReject]
            isHandled := true } with
          registered := rt.registered ++ [promise] }
      else
        -- `s->promise_state - JS_PROMISE_FULFILLED`
        let isReject := decide (s.promiseState = .rejected)
        { rt.setPromise promise { s with isHandled := true } with
          jobList := rt.jobList ++ [.reaction (rdArray isReject) isReject s.promiseResult]
          registered := rt.registered ++ [promise] }

/-- `perform_promise_then`. -/
def performPromiseThen (promise : Ptr) (onFulfilled onRejected : JSValue)
    (resolvingFuncs : JSValue × JSValue) : PromiseRuntime :=
  match rt.promises promise with
  | none => rt
  | some s =>
      let onFulfilled := handlerOf isFunction onFulfilled
      let onRejected := handlerOf isFunction onRejected
      if s.promiseState = .rejected ∧ s.isHandled = false ∧ rt.tracker then
        { rt.push (.subscribe promise resolvingFuncs onFulfilled onRejected) with
          reports := rt.reports ++ [⟨promise, s.promiseResult, true⟩] }
      else rt.subscribe promise resolvingFuncs onFulfilled onRejected

/-- `promise_reaction_job` from the result of the handler on. -/
def finishReaction (resolvingFuncs : JSValue × JSValue) (completion : Completion) :
    PromiseRuntime :=
  match completion with
  | .returned value =>
      if resolvingFuncs.1.isUndefined then rt else rt.callFunction resolvingFuncs.1 value
  | .threw thrown =>
      if resolvingFuncs.2.isUndefined then rt else rt.callFunction resolvingFuncs.2 thrown

/-- `promise_reaction_job`. -/
def promiseReactionJob (rd : PromiseReactionData) (isReject : Bool) (arg : JSValue) :
    PromiseRuntime :=
  let rt : PromiseRuntime := { rt with ran := rt.ran ++ [⟨rd.registration, isReject, arg⟩] }
  if rd.handler.isUndefined then
    rt.finishReaction rd.resolvingFuncs (if isReject then .threw arg else .returned arg)
  else rt.push (.reaction rd.resolvingFuncs)

/-- `js_promise_resolve_thenable_job` up to the call of `then`. -/
def promiseResolveThenableJob (promise : Ptr) : PromiseRuntime :=
  (rt.createResolvingFunctions promise).push (.rejectOnThrow rt.nextResolvingFunctions.2)

/-- `JS_ExecutePendingJob`. -/
def executePendingJob : PromiseRuntime :=
  match rt.jobList with
  | [] => rt
  | .reaction rd isReject arg :: rest =>
      { rt with jobList := rest }.promiseReactionJob rd isReject arg
  | .resolveThenable promise _ _ :: rest =>
      { rt with jobList := rest }.promiseResolveThenableJob promise

/-- A script that the engine has called returns. -/
def resume (frame : PromiseFrame) (completion : Completion) : PromiseRuntime :=
  match frame, completion with
  | .resolve promise _, .threw thrown => rt.fulfillOrRejectPromise promise thrown true
  | .resolve promise resolution, .returned then_ =>
      if isFunction then_ then rt.enqueueJob (.resolveThenable promise resolution then_)
      else rt.fulfillOrRejectPromise promise resolution false
  | .reject promise value, _ => rt.flushReactions promise value true
  | .subscribe promise resolvingFuncs onFulfilled onRejected, _ =>
      rt.subscribe promise resolvingFuncs onFulfilled onRejected
  | .reaction resolvingFuncs, completion => rt.finishReaction resolvingFuncs completion
  | .rejectOnThrow reject, .threw thrown => rt.callFunction reject thrown
  | .rejectOnThrow _, .returned _ => rt
  | .discard, _ => rt

def step : StepFn PromiseRuntime PromiseAction PromiseFault
  | rt, .setTracker installed => .ok { rt with tracker := installed }
  | rt, .newPromise => .ok rt.newPromise
  | rt, .call func arg => .ok (rt.callFunction func arg)
  | rt, .then_ promise onFulfilled onRejected resolvingFuncs =>
      .ok (rt.performPromiseThen isFunction promise onFulfilled onRejected resolvingFuncs)
  | rt, .executePendingJob => .ok rt.executePendingJob
  | rt, .complete completion =>
      match rt.frames with
      | [] => .error .noCaller
      | frame :: frames => .ok ({ rt with frames := frames }.resume isFunction frame completion)

end Definitions

end PromiseRuntime

end QuickjsBackend
