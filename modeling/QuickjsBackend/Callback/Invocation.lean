import QuickjsBackend.Callback.Wrapper
import QuickjsBackend.Template.GetFunction

/-! # Calls and constructions of template functions

The engine hands the wrapper the receiver of a call, or the new target of a
construction, in the same argument. The wrapper takes every invocation of a
constructor for a construction.
-/

namespace QuickjsBackend

/-- What a native callback reads from its `FunctionCallbackInfo`. -/
structure CallbackView where
  isConstructCall : Bool
  this : JSValue
  args : List JSValue
  data : JSValue

/-- The objects and their user data, `Isolate::exception_`, and the exception that is
pending in the engine, null for none. -/
structure CallState where
  heap : Heap
  userData : Ptr → Option ObjectUserData
  exception : JSValue
  currentException : JSValue

/-- The code that runs during an invocation: getters, and native callbacks by their
addresses, which answer a value. A `JS_EXCEPTION` stands for a throw. -/
structure UserCode where
  runGetter : Ptr → JSValue → CallState → JSValue × CallState
  callback : Nat → CallbackView → CallState → JSValue × CallState
  primitiveProto : JSValue → Option Ptr
  typeError : JSObject
  runGetter_grows : ∀ getter this state,
    state.heap.length ≤ (runGetter getter this state).2.heap.length

namespace UserCode

variable (code : UserCode)

/-- `JS_GetProperty` for `prototype`, from the object where the lookup starts. -/
def readPrototype (ptr : Ptr) (this : JSValue) (state : CallState) : JSValue × CallState :=
  match (state.heap.findProperty ptr "prototype").map Property.slot with
  | none => (.undefined, state)
  | some (.value value) => (value, state)
  | some (.getset none _) => (.undefined, state)
  | some (.getset (some getter) _) => code.runGetter getter this state

/-- `JS_GetProperty` for `prototype`. -/
def getPrototype (value : JSValue) (state : CallState) : JSValue × CallState :=
  match value with
  | .null | .undefined =>
      (.exception, { state with
        heap := state.heap ++ [.object code.typeError]
        currentException := .ref .object state.heap.length })
  | .exception => (.exception, state)
  | .ref .object ptr => code.readPrototype ptr value state
  | primitive =>
      match code.primitiveProto primitive with
      | none => (.undefined, state)
      | some ptr => code.readPrototype ptr value state

/-- `get_proto_obj`. -/
def protoObj : JSValue → Option Ptr
  | .ref .object ptr => some ptr
  | _ => none

/-- The object that the wrapper makes. -/
def instanceObject (proto : JSValue) (internalFieldCount : Nat) : JSObject where
  classData := .native internalFieldCount
  proto := protoObj proto
  isConstructor := false
  property _ := none

/-- The object with its `ObjectUserData`. -/
def newInstance (thisVal : JSValue) (internalFieldCount : Nat) (state : CallState) :
    JSValue × CallState :=
  let (proto, looked) := code.getPrototype thisVal state
  let ptr := looked.heap.length
  (.ref .object ptr, { looked with
    heap := looked.heap ++ [.object (instanceObject proto internalFieldCount)]
    userData := Function.update looked.userData ptr
      (some (Wrapper.function true internalFieldCount).newUserData) })

end UserCode

/-- An invocation of a wrapper: what the callback saw and in which state, whether it
stored an exception, and how the wrapper ended. -/
structure Outcome where
  view : CallbackView
  entry : CallState
  threw : Bool
  value : JSValue
  result : JSValue
  final : CallState

namespace UserCode

variable (code : UserCode)

/-- The wrapper of a function, on the `func_data` that `GetFunction` gives it. -/
def functionWrapper (funcData : List JSValue) (thisVal : JSValue) (args : List JSValue)
    (state : CallState) : Option Outcome :=
  match funcData with
  | [.external callback, .int internalFieldCount, data, .bool isConstructor] =>
      let wrapper := Wrapper.function isConstructor internalFieldCount.toInt.toNat
      let (object, entry) :=
        if wrapper.createsInstance then
          code.newInstance thisVal internalFieldCount.toInt.toNat state
        else (thisVal, state)
      let view : CallbackView := { isConstructCall := isConstructor, this := object, args, data }
      let (value, after) := code.callback callback view entry
      if after.exception ≠ .undefined then
        let final := { after with exception := .undefined, currentException := after.exception }
        some ⟨view, entry, true, value, .exception, final⟩
      else some ⟨view, entry, false, value, if wrapper.returnsThis then object else value, after⟩
  | _ => none

/-- `js_c_function_data_call`. -/
def functionDataCall (func thisVal : JSValue) (args : List JSValue) (state : CallState) :
    Option Outcome :=
  match (state.heap.object func).map JSObject.classData with
  | some (.cFunctionData funcData) => code.functionWrapper funcData thisVal args state
  | _ => none

/-- `JS_CallConstructorInternal`, of a function of a template. -/
def callConstructorInternal (func newTarget : JSValue) (args : List JSValue) (state : CallState) :
    Option Outcome :=
  if ((state.heap.object func).map JSObject.isConstructor).getD false then
    code.functionDataCall func newTarget args state
  else none

/-- `JS_Call`, of a function of a template. -/
def jsCall (func thisObj : JSValue) (args : List JSValue) (state : CallState) : Option Outcome :=
  code.functionDataCall func thisObj args state

end UserCode

/-- The ways to invoke a function: `new` and `NewInstance`, `Reflect.construct` and
`super` with a new target of their own, a call of a script, and `Function::Call`, whose
receiver may be an empty handle. -/
inductive FunctionInvocation
  | newInstance
  | construct (newTarget : JSValue)
  | call (receiver : JSValue)
  | functionCall (receiver : Option JSValue)

namespace FunctionInvocation

/-- The new target of a construction by the function. -/
def newTarget (func : JSValue) : FunctionInvocation → Option JSValue
  | newInstance => some func
  | construct newTarget => some newTarget
  | call _ => none
  | functionCall _ => none

/-- The receiver of a call. -/
def receiver : FunctionInvocation → JSValue
  | newInstance => .undefined
  | construct _ => .undefined
  | call receiver => receiver
  | functionCall receiver => receiver.getD .undefined

end FunctionInvocation

namespace UserCode

variable (code : UserCode)

def invoke (func : JSValue) (invocation : FunctionInvocation) (args : List JSValue)
    (state : CallState) :
    Option Outcome :=
  match invocation with
  | .newInstance => code.callConstructorInternal func func args state
  | .construct newTarget => code.callConstructorInternal func newTarget args state
  | .call receiver => code.jsCall func receiver args state
  | .functionCall receiver => code.jsCall func (receiver.getD .undefined) args state

end UserCode

/-- The internal fields of an object. -/
def CallState.internalFields (state : CallState) (ptr : Ptr) : List Nat :=
  match state.userData ptr with
  | some userData => userData.ptrs
  | none => []

/-- A prototype as a value. -/
def protoValue : Option Ptr → JSValue
  | some ptr => .ref .object ptr
  | none => .null

namespace Outcome

/-- What a construction should show the callback and return. -/
structure Constructs (outcome : Outcome) (code : UserCode) (state : CallState) (newTarget : JSValue)
    (internalFieldCount : Nat) : Prop where
  isConstructCall : outcome.view.isConstructCall = true
  fresh : ∃ ptr object, outcome.view.this = .ref .object ptr ∧ state.heap.objectAt ptr = none ∧
    outcome.entry.heap.objectAt ptr = some object ∧
    protoValue object.proto = (code.getPrototype newTarget state).1 ∧
    outcome.entry.internalFields ptr = List.replicate internalFieldCount 0
  result : outcome.threw = false → outcome.result = outcome.view.this

/-- What a call should show the callback and return. -/
structure Calls (outcome : Outcome) (receiver : JSValue) : Prop where
  isConstructCall : outcome.view.isConstructCall = false
  this : outcome.view.this = receiver
  result : outcome.threw = false →
    outcome.result = outcome.value ∧ outcome.final.currentException = .null

def Law (outcome : Outcome) (code : UserCode) (state : CallState) (func : JSValue)
    (invocation : FunctionInvocation) (internalFieldCount : Nat) : Prop :=
  match invocation.newTarget func with
  | some newTarget => outcome.Constructs code state newTarget internalFieldCount
  | none => outcome.Calls invocation.receiver

end Outcome

/-- The values that can be the prototype of an object. -/
def IsPrototype : JSValue → Prop
  | .ref .object _ => True
  | .null => True
  | _ => False

/-- A construction with at least one internal field by a new target whose `prototype` is
an object or null. -/
def FunctionInvocation.Guard (invocation : FunctionInvocation) (code : UserCode) (state : CallState)
    (func : JSValue)
    (internalFieldCount : Nat) : Prop :=
  match invocation.newTarget func with
  | some newTarget => 0 < internalFieldCount ∧ IsPrototype (code.getPrototype newTarget state).1
  | none => False

namespace UserCode

variable {code : UserCode} {state : CallState} {func thisVal : JSValue} {args : List JSValue}
  {outcome : Outcome} {template : FunctionTemplate}

theorem readPrototype_grows (code : UserCode) (ptr : Ptr) (this : JSValue) (state : CallState) :
    state.heap.length ≤ (code.readPrototype ptr this state).2.heap.length := by
  unfold readPrototype
  split
  next => exact Nat.le_refl _
  next => exact Nat.le_refl _
  next => exact Nat.le_refl _
  next => exact code.runGetter_grows _ _ _

theorem getPrototype_grows (code : UserCode) (value : JSValue) (state : CallState) :
    state.heap.length ≤ (code.getPrototype value state).2.heap.length := by
  unfold getPrototype
  split
  next => exact Nat.le_of_lt (by simp)
  next => exact Nat.le_of_lt (by simp)
  next => exact Nat.le_refl _
  next => exact code.readPrototype_grows _ _ _
  next =>
    split
    next => exact Nat.le_refl _
    next => exact code.readPrototype_grows _ _ _

theorem objectAt_eq_none {heap : Heap} {ptr : Ptr} (hle : heap.length ≤ ptr) :
    heap.objectAt ptr = none := by
  rw [Heap.objectAt, List.getElem?_eq_none hle]

theorem protoValue_protoObj {value : JSValue} :
    protoValue (protoObj value) = value ↔ IsPrototype value := by
  cases value with
  | ref tag ptr => cases tag <;> simp [protoObj, protoValue, IsPrototype]
  | _ => simp [protoObj, protoValue, IsPrototype]

/-- The number of internal fields that the wrapper reads back. -/
def fieldCount (template : FunctionTemplate) : Nat := template.internalFieldCount.toNat

/-- An invocation of the function of a template is one of the wrapper. -/
theorem functionDataCall_eq {object : JSObject} (hobject : state.heap.object func = some object)
    (hclass : object.classData = .cFunctionData template.funcData) :
    code.functionDataCall func thisVal args state =
      code.functionWrapper template.funcData thisVal args state := by
  rw [functionDataCall, hobject, Option.map_some, hclass]

theorem toInt_funcData (hpos : 0 ≤ template.internalFieldCount)
    (hint : template.internalFieldCount < 2 ^ 31) :
    (BitVec.ofInt 32 template.internalFieldCount).toInt = template.internalFieldCount := by
  rw [BitVec.toInt_ofInt]
  apply Int.bmod_eq_of_le <;> omega

/-- What the wrapper of a constructor does, however it is invoked. -/
theorem functionWrapper_eq_some (hconstructor : template.isConstrutor = true)
    (hpos : 0 ≤ template.internalFieldCount) (hint : template.internalFieldCount < 2 ^ 31)
    (houtcome : code.functionWrapper template.funcData thisVal args state = some outcome) :
    outcome.view.isConstructCall = true ∧
      (outcome.view.this, outcome.entry) =
        (if 0 < fieldCount template then code.newInstance thisVal (fieldCount template) state
          else (thisVal, state)) ∧
      (outcome.threw = false → outcome.result = outcome.view.this) := by
  have hcount : (BitVec.ofInt 32 template.internalFieldCount).toInt.toNat =
    fieldCount template := by
    rw [toInt_funcData hpos hint, fieldCount]
  simp only [functionWrapper, FunctionTemplate.funcData, hconstructor, hcount,
    Wrapper.createsInstance,
    Wrapper.returnsThis, Bool.true_and, decide_eq_true_eq, if_true] at houtcome
  generalize (if 0 < fieldCount template then code.newInstance thisVal (fieldCount template) state
    else (thisVal, state)) = entered at houtcome
  split at houtcome
  next =>
    cases houtcome
    exact ⟨rfl, rfl, fun h => by cases h⟩
  next =>
    cases houtcome
    exact ⟨rfl, rfl, fun _ => rfl⟩

/-- Every invocation is one of the wrapper, with the new target or the receiver. -/
theorem invoke_eq_some {invocation : FunctionInvocation} {object : JSObject}
    (hobject : state.heap.object func = some object)
    (hclass : object.classData = .cFunctionData template.funcData)
    (houtcome : code.invoke func invocation args state = some outcome) :
    code.functionWrapper template.funcData
      ((invocation.newTarget func).getD invocation.receiver) args
      state = some outcome := by
  have hconstruct : ∀ newTarget, code.callConstructorInternal func newTarget args state =
    some outcome →
      code.functionWrapper template.funcData newTarget args state = some outcome := by
    intro newTarget hcall
    unfold callConstructorInternal at hcall
    split at hcall
    next => rwa [functionDataCall_eq hobject hclass] at hcall
    next => cases hcall
  cases invocation with
  | newInstance => exact hconstruct _ houtcome
  | construct newTarget => exact hconstruct _ houtcome
  | call receiver => rwa [invoke, jsCall, functionDataCall_eq hobject hclass] at houtcome
  | functionCall receiver => rwa [invoke, jsCall, functionDataCall_eq hobject hclass] at houtcome

/-- The object of a construction with internal fields. -/
theorem newInstance_constructs {newTarget : JSValue} {count : Nat}
    (hthis : (outcome.view.this, outcome.entry) = code.newInstance newTarget count state)
    (hconstruct : outcome.view.isConstructCall = true)
    (hresult : outcome.threw = false → outcome.result = outcome.view.this) :
    outcome.Constructs code state newTarget count ↔
      IsPrototype (code.getPrototype newTarget state).1 := by
  have hgrows := code.getPrototype_grows newTarget state
  unfold newInstance at hthis
  rcases hlooked : code.getPrototype newTarget state with ⟨proto, looked⟩
  rw [hlooked] at hthis hgrows
  obtain ⟨hview, hentry⟩ := Prod.mk.inj hthis
  have hnew := @Heap.objectAt_append_new looked.heap (instanceObject proto count)
  constructor
  · rintro ⟨-, ⟨ptr, object, hptr, -, hobject, hsame, -⟩, -⟩
    rw [hview] at hptr
    cases hptr
    rw [hentry] at hobject
    cases hnew.symm.trans hobject
    rw [hlooked] at hsame
    exact protoValue_protoObj.mp hsame
  · intro hprototype
    refine ⟨hconstruct, ⟨looked.heap.length, instanceObject proto count, hview,
      objectAt_eq_none hgrows, ?_, ?_, ?_⟩, hresult⟩
    · rw [hentry]
      exact hnew
    · rw [hlooked]
      exact protoValue_protoObj.mpr hprototype
    · rw [hentry]
      simp only [CallState.internalFields, Function.update_self]
      rfl

/-- Without internal fields the new target itself is handed over. -/
theorem not_constructs {newTarget : JSValue} {count : Nat}
    (hthis : (outcome.view.this, outcome.entry) = (newTarget, state)) :
    ¬ outcome.Constructs code state newTarget count := by
  obtain ⟨-, hentry⟩ := Prod.mk.inj hthis
  rintro ⟨-, ⟨ptr, object, -, hfresh, hobject, -⟩, -⟩
  rw [hentry, hfresh] at hobject
  cases hobject

/-- An invocation of the function of a constructor template is as it should be exactly
when it constructs an object with internal fields, and the new target has a prototype
for it. -/
theorem invokes_iff (template : FunctionTemplate) (args : List JSValue)
    {invocation : FunctionInvocation} {object : JSObject}
    (hconstructor : template.isConstrutor = true)
    (hpos : 0 ≤ template.internalFieldCount) (hint : template.internalFieldCount < 2 ^ 31)
    (hobject : state.heap.object func = some object)
    (hclass : object.classData = .cFunctionData template.funcData)
    (houtcome : code.invoke func invocation args state = some outcome) :
    outcome.Law code state func invocation (fieldCount template) ↔
      invocation.Guard code state func (fieldCount template) := by
  obtain ⟨hconstruct, hthis, hresult⟩ :=
    functionWrapper_eq_some hconstructor hpos hint (invoke_eq_some hobject hclass houtcome)
  unfold Outcome.Law FunctionInvocation.Guard
  cases hnew : invocation.newTarget func with
  | none =>
      refine iff_of_false (fun hcalls => ?_) id
      rw [hcalls.isConstructCall] at hconstruct
      cases hconstruct
  | some newTarget =>
      rw [hnew, Option.getD_some] at hthis
      by_cases hfields : 0 < fieldCount template
      · rw [if_pos hfields] at hthis
        exact (newInstance_constructs hthis hconstruct hresult).trans (and_iff_right hfields).symm
      · rw [if_neg hfields] at hthis
        exact iff_of_false (not_constructs hthis) fun hguard => hfields hguard.1

/-- A template with one internal field. -/
def oneField : FunctionTemplate := (FunctionTemplate.new 1 .undefined).declare
  (.setInternalFieldCount .instanceTemplate 1)

/-- Its function, with an object for a prototype. -/
def oneFieldState : CallState where
  heap := [
    .object {
      classData := .cFunctionData oneField.funcData
      proto := none
      isConstructor := true
      property := fun name =>
        if name = "prototype" then some ⟨.value (.ref .object 1), false, false, false⟩ else none },
    .object {
      classData := .object
      proto := none
      isConstructor := false
      property := fun _ => none }]
  userData _ := none
  exception := .undefined
  currentException := .null

/-- Callbacks that return a number, and no getters. -/
def returnsSeven : UserCode where
  runGetter _ _ state := (.undefined, state)
  callback _ _ state := (.int 7, state)
  primitiveProto _ := none
  typeError := {
    classData := .other false
    proto := none
    isConstructor := false
    property := fun _ => none }
  runGetter_grows _ _ _ := Nat.le_refl _

theorem invokes_newInstance : ∃ outcome,
    returnsSeven.invoke (.ref .object 0) .newInstance [] oneFieldState = some outcome ∧
      (outcome.Law returnsSeven oneFieldState (.ref .object 0) .newInstance (fieldCount oneField) ↔
        FunctionInvocation.newInstance.Guard returnsSeven oneFieldState (.ref .object 0)
          (fieldCount oneField)) :=
  ⟨_, rfl, invokes_iff oneField [] rfl (by decide) (by decide) rfl rfl rfl⟩

/-- A call without `new` counts as a construction, and does not return what the callback
does. -/
theorem call_is_construct_call : ∃ outcome,
    returnsSeven.invoke (.ref .object 0) (.call .undefined) [] oneFieldState = some outcome ∧
      outcome.view.isConstructCall = true ∧ outcome.result = .ref .object 3 ∧
      outcome.final.currentException = .ref .object 2 ∧
      ¬ outcome.Law returnsSeven oneFieldState (.ref .object 0) (.call .undefined)
        (fieldCount oneField) :=
  ⟨_, rfl, rfl, rfl, rfl, fun hlaw => Bool.noConfusion hlaw.isConstructCall⟩

end UserCode

end QuickjsBackend
