import QuickjsBackend.Handle.Isolate
import QuickjsBackend.Template.Template

/-! # Instantiating templates

`GetFunction` makes a function for a context the first time it is asked, and for
a constructor goes on to the templates and accessors it is made of. It runs the
engine in between, so each of these is a step of its own; the calls in progress
are on a stack. A function object owns references to its `func_data` and gives
them up, one after the other, once it is dead.
-/

namespace QuickjsBackend

open Foundation

/-- A function object of the engine with the part of its `func_data` that it has
not given up. -/
structure CFunction where
  ptr : Ptr
  funcData : List JSValue
  deriving DecidableEq, Repr

/-- A call of `GetFunction` that has made its function and not returned. -/
structure Activation where
  template : Nat
  context : Nat
  func : JSValue
  todo : List Task
  deriving DecidableEq, Repr

structure Templates where
  isolate : Isolate
  -- `none` once destroyed
  table : List (Option FunctionTemplate)
  functions : List CFunction
  -- innermost call first
  activations : List Activation

namespace Templates

def new : Templates where
  isolate := .new
  table := []
  functions := []
  activations := []

variable (templates : Templates)

def template (id : Nat) : Option FunctionTemplate := templates.table.getD id none

def setTemplate (id : Nat) (entry : Option FunctionTemplate) : Templates :=
  { templates with table := templates.table.set id entry }

/-- The raw value of a data argument; an empty handle stands for undefined. -/
def dataValue (data : Option Local) : Except Fault JSValue :=
  match data with
  | none => .ok .undefined
  | some handle =>
      match templates.isolate.deref handle with
      | none => .error .misuse
      | some value =>
          if templates.isolate.runtime.Live value then .ok value else .error .misuse

/-- `FunctionTemplate::New`. -/
def newFunctionTemplate (callback : Nat) (data : Option Local) : Except Fault Templates :=
  match templates.dataValue data with
  | .error fault => .error fault
  | .ok value =>
      .ok { templates with table := templates.table ++ [some (.new callback value)] }

/-- `ObjectTemplate::SetAccessor` on the instance or the prototype template. -/
def setAccessor (id : Nat) (template : FunctionTemplate) (part : Part) (name : String)
    (getter setter : Option Nat) (data : Option Local) (attributes : PropertyAttribute) :
    Except Fault Templates :=
  match templates.dataValue data with
  | .error fault => .error fault
  | .ok value =>
      .ok (templates.setTemplate id (some (template.onObject part fun object =>
        object.setAccessor name { getter, setter, data := value, attributes })))

/-- What `JS_NewCFunctionData` leaves: a new function, and a reference more on
each of its data. The reference to the function itself is the caller's to place. -/
def withFunction (ptr : Ptr) (funcData : List JSValue) : Templates :=
  { templates with
    isolate := { templates.isolate with
      runtime := funcData.foldl Runtime.dupValueRT
        (templates.isolate.runtime.produce (.ref .object ptr))
      others := templates.isolate.others + (JSValue.ref .object ptr).refs }
    functions := templates.functions ++ [{ ptr, funcData }] }

/-- `JS_NewCFunctionData`. -/
def newCFunctionData (ptr : Ptr) (funcData : List JSValue) : Except Fault Templates :=
  if templates.isolate.runtime.cell ptr = .unused then
    if ∀ value ∈ funcData, templates.isolate.runtime.Live value then
      .ok (templates.withFunction ptr funcData)
    else .error .useAfterFree
  else .error .misuse

/-- The call of `GetFunction` that has made its function keeps it. -/
def begin (id : Nat) (template : FunctionTemplate) (context : Nat) (func : JSValue) : Templates :=
  { templates with
    isolate := { templates.isolate with others := templates.isolate.others - func.refs }
    activations := { template := id, context, func, todo := template.tasks } ::
      templates.activations }

/-- `FunctionTemplate::GetFunction` up to what it does for a constructor. -/
def getFunction (id context : Nat) (ptr : Ptr) : Except Fault Templates :=
  match templates.template id with
  | none => .error .misuse
  | some template =>
      match template.contextToFunction.lookup context with
      | some func =>
          if templates.isolate.runtime.Live func then
            .ok { templates with isolate := templates.isolate.copyToSlot func }
          else .error .useAfterFree
      | none =>
          match templates.newCFunctionData ptr template.funcData with
          | .error fault => .error fault
          | .ok after => .ok (after.begin id template context (.ref .object ptr))

/-- The name of an accessor, as a handle. -/
def withName (name : Ptr) : Templates :=
  { templates with
    isolate := templates.isolate.alloc.store templates.isolate.valueAllocPos
      templates.isolate.frames (.ref .string name) }

/-- `JS_NewCFunctionData` for a getter or setter, if there is one. -/
def newAccessorFunction (ptr : Ptr) (funcData : Option (List JSValue)) : Except Fault Templates :=
  match funcData with
  | none => .ok templates
  | some funcData => templates.newCFunctionData ptr funcData

/-- One iteration of `ObjectTemplate::InitAccessors`. -/
def initAccessor (info : AccessorInfo) (name getter setter : Ptr) : Except Fault Templates :=
  if templates.isolate.runtime.cell name = .unused then
    match (templates.withName name).newAccessorFunction getter
        (info.getterData (.ref .string name)) with
    | .error fault => .error fault
    | .ok after => after.newAccessorFunction setter (info.setterData (.ref .string name))
  else .error .misuse

/-- `GetFunction` hands out its function and remembers it for the context. An
entry that a nested call has made in the meantime is overwritten. -/
def finish (activation : Activation) (rest : List Activation) : Except Fault Templates :=
  match templates.template activation.template with
  | none => .error .misuse
  | some template =>
      if templates.isolate.runtime.Live activation.func then
        .ok { templates with
          isolate := templates.isolate.copyToSlot activation.func
          table := templates.table.set activation.template (some { template with
            contextToFunction :=
              assign activation.context activation.func template.contextToFunction })
          activations := rest }
      else .error .useAfterFree

/-- The innermost call of `GetFunction` goes on. The addresses are those of a
name, a function and a setter, as far as the engine allocates them. -/
def resume (name ptr setter : Ptr) : Except Fault Templates :=
  match templates.activations with
  | [] => .error .misuse
  | activation :: rest =>
      match activation.todo with
      | [] => templates.finish activation rest
      | task :: todo =>
          let next := { templates with activations := { activation with todo } :: rest }
          match task with
          | .getFunction id => next.getFunction id activation.context ptr
          | .initAccessor accessor =>
              match ((templates.template activation.template).bind
                (·.prototypeTemplate)).bind (·.accessorInfos.lookup accessor) with
              | none => .error .misuse
              | some info => next.initAccessor info name ptr setter

/-- A callback that the engine runs for a function reads `info.Data()`. -/
def callbackData (index : Nat) : Except Fault Templates :=
  match templates.functions[index]? with
  | none => .error .misuse
  | some function =>
      if templates.isolate.runtime.cell function.ptr = .live then
        match function.funcData[2]? with
        | none => .error .misuse
        | some data =>
            if templates.isolate.runtime.Live data then .ok templates else .error .useAfterFree
      else .error .misuse

/-- A release that takes back a reference the layer or a function object had. -/
def release (value : JSValue) : Templates :=
  { templates with
    isolate := { templates.isolate with
      runtime := templates.isolate.runtime.freeValueRT value } }

/-- One iteration of `js_c_function_data_finalizer`. -/
def freeFuncData (index : Nat) : Except Fault Templates :=
  match templates.functions[index]? with
  | none => .error .misuse
  | some function =>
      if templates.isolate.runtime.cell function.ptr = .freed then
        match function.funcData with
        | [] => .error .misuse
        | value :: rest =>
            .ok { templates.release value with
              functions := templates.functions.set index { function with funcData := rest } }
      else .error .misuse

/-- One iteration of `~FunctionTemplate`. -/
def freeCached (id : Nat) : Except Fault Templates :=
  match templates.template id with
  | none => .error .misuse
  | some template =>
      match template.contextToFunction with
      | [] => .error .misuse
      | (_, func) :: rest =>
          .ok ((templates.release func).setTemplate id
            (some { template with contextToFunction := rest }))

/-- The end of `~FunctionTemplate`. -/
def destroy (id : Nat) : Except Fault Templates :=
  match templates.template id with
  | none => .error .misuse
  | some template =>
      if template.contextToFunction = [] then .ok (templates.setTemplate id none)
      else .error .misuse

def declare (id : Nat) (declaration : Declaration) : Except Fault Templates :=
  match templates.template id with
  | none => .error .misuse
  | some template => .ok (templates.setTemplate id (some (template.declare declaration)))

end Templates

inductive TemplateOp
  | newFunctionTemplate (callback : Nat) (data : Option Local)
  | declare (id : Nat) (declaration : Declaration)
  | setAccessor (id : Nat) (part : Part) (name : String) (getter setter : Option Nat)
      (data : Option Local) (attributes : PropertyAttribute)
  | getFunction (id context : Nat) (ptr : Ptr)
  | resume (name ptr setter : Ptr)
  | callbackData (index : Nat)
  | freeFuncData (index : Nat)
  | freeCached (id : Nat)
  | destroy (id : Nat)
  deriving DecidableEq, Repr

/-- Operations on templates and functions, and what the handle layer and the
engine do. -/
inductive TemplateAction
  | template (op : TemplateOp)
  | isolate (action : Action)
  deriving DecidableEq, Repr

namespace Templates

def templateStep (templates : Templates) : TemplateOp → Except Fault Templates
  | .newFunctionTemplate callback data => templates.newFunctionTemplate callback data
  | .declare id declaration => templates.declare id declaration
  | .setAccessor id part name getter setter data attributes =>
      match templates.template id with
      | none => .error .misuse
      | some template =>
          templates.setAccessor id template part name getter setter data attributes
  | .getFunction id context ptr => templates.getFunction id context ptr
  | .resume name ptr setter => templates.resume name ptr setter
  | .callbackData index => templates.callbackData index
  | .freeFuncData index => templates.freeFuncData index
  | .freeCached id => templates.freeCached id
  | .destroy id => templates.destroy id

def step : StepFn Templates TemplateAction Fault := fun templates action =>
  match action with
  | .template op => templates.templateStep op
  | .isolate action =>
      (templates.isolate.step action).map fun isolate => { templates with isolate }

end Templates

end QuickjsBackend
