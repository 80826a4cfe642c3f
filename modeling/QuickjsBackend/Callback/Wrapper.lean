import QuickjsBackend.Handle.Transition

/-! # The wrappers around native callbacks

Functions and accessors of templates are C functions that build a callback
info, run the native callback on it, and hand a value or an exception to the
engine. Return values and exceptions are raw values in `value_` and
`exception_`; the reference that goes with each was taken by `Isolate::Escape`
when it was stored.
-/

namespace QuickjsBackend

/-- What the fast setters of `ReturnValue` store: `Set(double)` and
`Set(uint32_t)` store a number that is an `int32_t` as an integer. -/
inductive Primitive
  | bool (value : Bool)
  | int32 (value : BitVec 32)
  | float64 (bits : BitVec 64)
  | null
  | undefined
  deriving DecidableEq, Repr

def Primitive.value : Primitive → JSValue
  | .bool value => .bool value
  | .int32 value => .int value
  | .float64 bits => .float64 bits
  | .null => .null
  | .undefined => .undefined

/-- `isConstructCall` is the constructor flag in the function's data. -/
inductive Wrapper
  | function (isConstructCall : Bool) (internalFieldCount : Nat)
  | getter
  | setter
  deriving DecidableEq, Repr

namespace Wrapper

/-- Whether the wrapper makes the instance, with an `ObjectUserData`, itself. -/
def createsInstance : Wrapper → Bool
  | function isConstructCall internalFieldCount => isConstructCall && 0 < internalFieldCount
  | getter | setter => false

/-- Whether a normal return hands over `this_` in place of `value_`. -/
def returnsThis : Wrapper → Bool
  | function isConstructCall _ => isConstructCall
  | getter | setter => false

/-- The `ObjectUserData` of a new instance, zeroed apart from `len_`. -/
def newUserData : Wrapper → ObjectUserData
  | function _ internalFieldCount =>
      { len := internalFieldCount
        callback := none
        parameter := 0
        ptrs := List.replicate internalFieldCount 0 }
  | getter | setter => { len := 0, callback := none, parameter := 0, ptrs := [] }

end Wrapper

/-- `FunctionCallbackInfo` and `PropertyCallbackInfo`. Arguments, key and data
are read through handles to outside storage. -/
structure CallbackInfo where
  isolate : Isolate
  value : JSValue
  this : JSValue
  -- proof-facing: what `value_` and `exception_` held when they were stored to
  overwritten : List JSValue
  -- proof-facing: change of the counts by handle operations and the engine
  drift : Ptr → Int

/-- What a callback body does. Calls back into the engine are handle operations
(the result is stored in a slot) and operations of the engine. -/
inductive BodyOp
  | set (handle : Option Local)
  | setPrimitive (primitive : Primitive)
  | throwException (handle : Local)
  | handle (op : HandleOp)
  | engine (op : EngineOp)
  deriving DecidableEq, Repr

/-- How a wrapper ends; in either case the engine receives the value with a
reference. -/
inductive Completion
  | returned (value : JSValue)
  | threw (thrown : JSValue)
  deriving DecidableEq, Repr

def Completion.handed : Completion → JSValue
  | returned value => value
  | threw thrown => thrown

/-- `Isolate::Escape` of what the handle denotes. -/
def Isolate.escapeHandle (isolate : Isolate) (handle : Local) :
    Except Fault (JSValue × Isolate) :=
  match isolate.currentHandleScope with
  | none => .error .abort
  | some _ =>
      match isolate.deref handle with
      | none => .error .misuse
      | some value =>
          if isolate.runtime.Live value then
            .ok (value, { isolate with runtime := isolate.runtime.dupValueRT value })
          else .error .misuse

namespace CallbackInfo

variable (info : CallbackInfo)

/-- Store to `value_`. -/
def setValue (value : JSValue) : CallbackInfo :=
  { info with value, overwritten := info.value :: info.overwritten }

/-- `ReturnValue<T>::Set(Local<S>)`; an empty handle sets undefined. -/
def set (handle : Option Local) : Except Fault CallbackInfo :=
  match handle with
  | none => .ok (info.setValue .undefined)
  | some handle =>
      match info.isolate.escapeHandle handle with
      | .ok (value, isolate) => .ok ({ info with isolate }.setValue value)
      | .error fault => .error fault

/-- `Isolate::ThrowException`. -/
def throwException (handle : Local) : Except Fault CallbackInfo :=
  match info.isolate.escapeHandle handle with
  | .ok (value, isolate) =>
      .ok { info with
        isolate := { isolate with exception := value }
        overwritten := isolate.exception :: info.overwritten }
  | .error fault => .error fault

/-- An operation that does not touch the callback info. -/
def within (action : Action) : Except Fault CallbackInfo :=
  match info.isolate.step action with
  | .ok isolate =>
      .ok { info with
        isolate
        drift := info.drift + (isolate.runtime.refCount - info.isolate.runtime.refCount) }
  | .error fault => .error fault

def bodyStep : Foundation.StepFn CallbackInfo BodyOp Fault := fun info op =>
  match op with
  | .set handle => info.set handle
  | .setPrimitive primitive => .ok (info.setValue primitive.value)
  | .throwException handle => info.throwException handle
  | .handle op => info.within (.handle op)
  | .engine op => info.within (.engine op)

end CallbackInfo

namespace Wrapper

variable (wrapper : Wrapper)

/-- The instance of a construct call with internal fields: the prototype is
fetched from the new target and released again. -/
def createInstance (isolate : Isolate) (proto : JSValue) (ptr : Ptr) : Isolate :=
  let rt := ((isolate.runtime.dupValueRT proto).produce (.ref .object ptr)).freeValueRT proto
  { isolate with
    runtime := { rt with userData := Function.update rt.userData ptr (some wrapper.newUserData) } }

/-- The wrapper up to the call of the native callback. -/
def enter (isolate : Isolate) (thisVal proto : JSValue) (ptr : Ptr) :
    Except Fault CallbackInfo :=
  let info isolate this : CallbackInfo :=
    { isolate, value := .undefined, this, overwritten := [], drift := 0 }
  if wrapper.createsInstance then
    if isolate.runtime.Live proto ∧ isolate.runtime.cell ptr = .unused then
      .ok (info (wrapper.createInstance isolate proto ptr) (.ref .object ptr))
    else .error .misuse
  else .ok (info isolate thisVal)

/-- An exception path gives up the instance the wrapper has made. -/
def dropInstance (info : CallbackInfo) : CallbackInfo :=
  if wrapper.createsInstance then
    { info with
      isolate := { info.isolate with
        runtime := info.isolate.runtime.freeValueRT info.this } }
  else info

/-- The wrapper after the native callback has returned. -/
def leave (info : CallbackInfo) : Completion × CallbackInfo :=
  if !info.isolate.exception.isUndefined then
    let dropped := wrapper.dropInstance info
    (.threw info.isolate.exception,
      { dropped with isolate := { dropped.isolate with exception := .undefined } })
  else (.returned (if wrapper.returnsThis then info.this else info.value), info)

/-- One invocation up to the return of the native callback. The prototype and
the address of the instance are what the engine answers if one is made. -/
def invoke (isolate : Isolate) (thisVal proto : JSValue) (ptr : Ptr) (body : List BodyOp) :
    Except Fault CallbackInfo :=
  match wrapper.enter isolate thisVal proto ptr with
  | .error fault => .error fault
  | .ok entered => CallbackInfo.bodyStep.run entered body

/-- One invocation. -/
def call (isolate : Isolate) (thisVal proto : JSValue) (ptr : Ptr) (body : List BodyOp) :
    Except Fault (Completion × CallbackInfo) :=
  (wrapper.invoke isolate thisVal proto ptr body).map wrapper.leave

end Wrapper

end QuickjsBackend
