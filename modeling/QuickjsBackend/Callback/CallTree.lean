import QuickjsBackend.Callback.Wrapper

/-! # Exceptions across nested native callbacks and scripts

A run alternates between native code and scripts: a native frame throws, opens
`TryCatch` and `Context::Scope` objects and starts operations (`Script::Run`,
`Function::Call`, `Function::NewInstance`), and a script invokes native callbacks
through the wrappers. Scripts are arbitrary: they go on from each callback in any
way they like, whether it returned or threw, and finally complete with any value. A
run keeps a record of every invocation and every operation. It ends where the
current context is read while there is none.
-/

namespace QuickjsBackend

inductive OperationKind
  | run
  | call
  | newInstance
  deriving DecidableEq, Repr

mutual

/-- Code of a native frame. The end of a `tryCatch` block falls through to
`rest`, which sees what was caught; at the end of a `contextScope` block that has
switched the jobs run. -/
inductive Native
  | ret (value : JSValue)
  | throwException (value : JSValue) (rest : Native)
  | operate (kind : OperationKind) (script report : Script) (rest : Option JSValue → Native)
  | tryCatch (body : Native) (rest : JSValue → Native)
  | contextScope (context : Nat) (body : Native) (jobs : Jobs) (rest : Native)

/-- Code of a script between its calls into native callbacks. -/
inductive Script
  | complete (completion : Completion)
  | invoke (wrapper : Wrapper) (this : JSValue) (body : Native) (rest : Completion → Script)

/-- The jobs of the queue, one after the other. -/
inductive Jobs
  | done
  | execute (job : Script) (rest : Completion → Jobs)

end

structure ExceptionState where
  -- `Isolate::exception_`
  exception : JSValue
  -- `catched_` along the chain of `currentTryCatch_`, innermost first
  tryCatches : List JSValue
  -- `rt->current_exception`
  currentException : JSValue
  -- `Isolate::current_context_`
  currentContext : Option Nat
  deriving DecidableEq, Repr

def ExceptionState.new : ExceptionState where
  exception := .undefined
  tryCatches := []
  currentException := .null
  currentContext := none

/-- `TryCatch::HasCaught`. -/
def hasCaught (catched : JSValue) : Bool := !catched.isUndefined && !catched.isNull

/-- `TryCatch::handleException` of the innermost object, if there is one. -/
def catchIn : List JSValue → JSValue → List JSValue
  | [], _ => []
  | _ :: outer, value => value :: outer

namespace Completion

/-- The value of an abrupt completion. -/
def thrown : Completion → Option JSValue
  | returned _ => none
  | threw thrown => some thrown

/-- What `ProcessResult` makes of it: an empty handle or the value. -/
def result : Completion → Option JSValue
  | returned value => some value
  | threw _ => none

end Completion

/-- The end of a wrapper: what it answers to the engine and what it leaves in
`exception_`. -/
def deliver (pending returns : JSValue) : Completion × JSValue :=
  if !pending.isUndefined then (.threw pending, .undefined) else (.returned returns, pending)

/-- A finished native invocation. Its deeds are, in order, the values it passed to
`ThrowException` and, as `none`, native callbacks run by its operations. -/
structure Invocation where
  started : JSValue
  deeds : List (Option JSValue)
  returns : JSValue
  completion : Completion
  after : JSValue
  deriving DecidableEq, Repr

/-- An operation: whether the innermost `TryCatch` is of the same native frame, the
current context, what every open `TryCatch` held before and after, the exceptions of
operations inside it that no frame in between had a `TryCatch` for, and the contexts
that were current where a `TryCatch` inside it was destroyed. Without a completion
the engine did not come to an end, without a result the operation did not. -/
structure Operation where
  kind : OperationKind
  own : Bool
  currentContext : Option Nat
  before : List JSValue
  inner : List JSValue
  destroyed : List (Option Nat)
  completion : Option Completion
  result : Option (Option JSValue)
  after : List JSValue
  deriving DecidableEq, Repr

inductive Record
  | invocation (invocation : Invocation)
  | operation (operation : Operation)
  deriving DecidableEq, Repr

/-- A run of a piece of code with what it did to its surroundings; without a value it
has read through a null pointer. -/
structure Ran (α : Type) where
  value : Option α
  state : ExceptionState
  deeds : List (Option JSValue)
  inner : List JSValue
  destroyed : List (Option Nat)
  records : List Record

namespace Ran

variable {α β : Type}

/-- Nothing to run. -/
def idle (value : α) (state : ExceptionState) : Ran α where
  value := some value
  state
  deeds := []
  inner := []
  destroyed := []
  records := []

/-- A null pointer is read. -/
def stopped (state : ExceptionState) : Ran α where
  value := none
  state
  deeds := []
  inner := []
  destroyed := []
  records := []

/-- What is left to run, unless it has stopped. -/
def andThen (ran : Ran α) (rest : α → ExceptionState → Ran β) : Ran β :=
  match ran.value with
  | none =>
      { value := none
        state := ran.state
        deeds := ran.deeds
        inner := ran.inner
        destroyed := ran.destroyed
        records := ran.records }
  | some value =>
      let after := rest value ran.state
      { value := after.value
        state := after.state
        deeds := ran.deeds ++ after.deeds
        inner := ran.inner ++ after.inner
        destroyed := ran.destroyed ++ after.destroyed
        records := ran.records ++ after.records }

/-- `Isolate::ThrowException`. -/
def throwException (value : JSValue) (state : ExceptionState) : Ran Unit where
  value := some ()
  state := { state with exception := value }
  deeds := [some value]
  inner := []
  destroyed := []
  records := []

/-- An exception is taken from the engine, for the innermost `TryCatch` if there is
one. -/
def getException (state : ExceptionState) : Ran Unit where
  value := some ()
  state :=
    { state with
      tryCatches := catchIn state.tryCatches state.currentException
      currentException := .null }
  deeds := []
  inner := [state.currentException]
  destroyed := []
  records := []

/-- `~TryCatch`, which frees `catched_` in the current context. -/
def destroyTryCatch (inside : Ran JSValue) : Ran JSValue :=
  let closed := { inside.state with tryCatches := inside.state.tryCatches.tail }
  { value := inside.value.bind fun _ =>
      closed.currentContext.map fun _ => inside.state.tryCatches.headD .undefined
    state := closed
    deeds := inside.deeds
    inner := []
    destroyed := inside.destroyed ++ inside.value.toList.map fun _ => closed.currentContext
    records := inside.records }

/-- `~Context::Scope`, when the jobs have run. -/
def restoreContext (inside : Ran Unit) (prev : Option Nat) : Ran Unit :=
  { inside with state := { inside.state with currentContext := prev } }

/-- The end of the wrapper around a native callback. -/
def leaveWrapper (body : Ran JSValue) (wrapper : Wrapper) (this started : JSValue) :
    Ran Completion :=
  match body.value with
  | none =>
      { value := none
        state := body.state
        deeds := [none]
        inner := body.inner
        destroyed := body.destroyed
        records := body.records }
  | some value =>
      let returns := if wrapper.returnsThis then this else value
      -- the script takes a thrown value off `current_exception` to handle it or rethrow it
      let delivered := deliver body.state.exception returns
      let invocation : Invocation :=
        { started
          deeds := body.deeds
          returns
          completion := delivered.1
          after := delivered.2 }
      { value := some delivered.1
        state := { body.state with exception := delivered.2 }
        deeds := [none]
        inner := body.inner
        destroyed := body.destroyed
        records := body.records ++ [.invocation invocation] }

end Ran

/-- `Isolate::handleException`. It and `TryCatch::handleException` read `context_` of
the current context. Without a `TryCatch` it goes on to report the exception, which
reads properties of it and so can run another script. -/
def handleException (report : ExceptionState → Ran Completion) (state : ExceptionState) :
    Ran Unit :=
  match state.currentContext with
  | none => .stopped state
  | some _ =>
      (Ran.getException state).andThen fun _ after =>
        if state.tryCatches.isEmpty && hasCaught state.currentException then
          (report after).andThen fun _ after => .idle () after
        else .idle () after

def processResult (report : ExceptionState → Ran Completion) (completion : Completion)
    (state : ExceptionState) : Ran (Option JSValue) :=
  match completion with
  | .returned value => .idle (some value) state
  | .threw _ => (handleException report state).andThen fun _ after => .idle none after

/-- `Script::Run` makes a `String::Utf8Value` of the source, in the current context. -/
def OperationKind.begin (kind : OperationKind) (state : ExceptionState) : Ran Unit :=
  match kind with
  | run =>
      match state.currentContext with
      | none => .stopped state
      | some _ => .idle () state
  | call | newInstance => .idle () state

/-- An operation, with what the engine runs in it. -/
def operate (own : Bool) (kind : OperationKind) (script report : ExceptionState → Ran Completion)
    (state : ExceptionState) : Ran (Option JSValue) :=
  let ran := (kind.begin state).andThen fun _ begun => script begun
  let processed := ran.andThen (processResult report)
  let operation : Operation :=
    { kind
      own
      currentContext := state.currentContext
      before := state.tryCatches
      inner := ran.inner
      destroyed := processed.destroyed
      completion := ran.value
      result := processed.value
      after := processed.state.tryCatches }
  { processed with records := processed.records ++ [.operation operation] }

/-- The wrapper model and the one of this module end an invocation alike. -/
theorem leave_eq_deliver (wrapper : Wrapper) (info : CallbackInfo) :
    ((wrapper.leave info).1, (wrapper.leave info).2.isolate.exception) =
      deliver info.isolate.exception (if wrapper.returnsThis then info.this else info.value) := by
  cases hthrown : info.isolate.exception.isUndefined with
  | true => simp only [Wrapper.leave, deliver, hthrown, Bool.not_true, Bool.false_eq_true, if_false]
  | false => simp only [Wrapper.leave, deliver, hthrown, Bool.not_false, if_true]

mutual

/-- `own` tells whether the innermost `TryCatch` belongs to the frame. -/
def runNative (own : Bool) : Native → ExceptionState → Ran JSValue
  | .ret value, state => .idle value state
  | .throwException value rest, state =>
      (Ran.throwException value state).andThen fun _ thrown => runNative own rest thrown
  | .operate kind script report rest, state =>
      (operate own kind (fun begun => runScript script begun)
        (fun handled => runScript report handled) state).andThen
          fun result after => runNative own (rest result) after
  | .tryCatch body rest, state =>
      (runNative true body { state with tryCatches := .undefined :: state.tryCatches }
        ).destroyTryCatch.andThen fun catched closed => runNative own (rest catched) closed
  | .contextScope context body jobs rest, state =>
      let inside := runNative own body { state with currentContext := some context }
      let drained := inside.andThen fun _ closing =>
        if some context ≠ state.currentContext then runJobs jobs closing else .idle () closing
      (drained.restoreContext state.currentContext).andThen fun _ closed =>
        runNative own rest closed

def runScript : Script → ExceptionState → Ran Completion
  | .complete completion, state =>
      .idle completion <|
        match completion with
        | .returned _ => state
        | .threw value => { state with currentException := value }
  | .invoke wrapper this body rest, state =>
      ((runNative false body state).leaveWrapper wrapper this state.exception).andThen
        fun completion left => runScript (rest completion) left

/-- What a job throws stays in `current_exception`. -/
def runJobs : Jobs → ExceptionState → Ran Unit
  | .done, state => .idle () state
  | .execute job rest, state =>
      (runScript job state).andThen fun completion left => runJobs (rest completion) left

end

end QuickjsBackend
