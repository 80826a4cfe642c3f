import QuickjsBackend.Callback.Wrapper

/-! # Persistent handles

A `Global` keeps a raw copy of its value in `store_`, and `val_` points there; a
strong one has taken a reference for it, a weak one has given it up again. The
state is an isolate and the `Global` objects constructed so far, each at an
address of its own. Weak callbacks that an operation sets off run as further
operations: after it, or where `Reset()` drops the last reference before it goes
on to clear its fields.
-/

namespace QuickjsBackend

/-- What `val_` of a `Global` points at. -/
inductive Place
  | handle (value : JSValue)
  | store (id : Nat)
  deriving DecidableEq, Repr

structure Global where
  -- whether `isolate_` is set
  isolate : Bool
  val : Option Place
  weak : Bool
  store : JSValue
  -- proof-facing: `Reset()` has given the reference up and not cleared the fields
  released : Bool
  -- proof-facing: callback and parameter of the `SetWeak` that made it weak
  registered : Option (Nat × Nat)
  deriving DecidableEq, Repr

/-- `Global()`; `store_` is not initialized. -/
def Global.empty : Global where
  isolate := false
  val := none
  weak := false
  store := .undefined
  released := false
  registered := none

/-- What `Reset()` leaves. -/
def Global.cleared (global : Global) : Global :=
  { global with
    isolate := false
    val := none
    weak := false
    released := false
    registered := none }

/-- What `Reset` with a value leaves at the address. -/
def Global.strong (id : Nat) (value : JSValue) : Global where
  isolate := true
  val := some (.store id)
  weak := false
  store := value
  released := false
  registered := none

/-- What the target of a move takes over from the source. -/
def Global.takeOver (id : Nat) (source : Global) (value : JSValue) : Global where
  isolate := source.isolate
  val := some (.store id)
  weak := source.weak
  store := value
  released := source.released
  registered := source.registered

/-- The source of a move is marked weak, so that it gives up no reference. -/
def Global.movedFrom (source : Global) : Global :=
  { source with weak := true, isolate := false, registered := none }

/-- What `SetWeak` leaves of a strong one. -/
def Global.weakened (global : Global) (callback parameter : Nat) : Global :=
  { global with weak := true, registered := some (callback, parameter) }

/-- The condition under which `Reset()` and `SetWeak` give up a reference. -/
def Global.isStrong (global : Global) : Bool := !global.weak && global.val.isSome

/-- A strong one owns its reference until `Reset()` gives it up. -/
def Global.owns (global : Global) : Bool := global.isStrong && !global.released

/-- What the caller of `Reset()` does afterwards. -/
inductive ResetCont
  | reset
  | resetTo (other : Option Local)
  | moveAssign (source : Nat)
  | destroy
  deriving DecidableEq, Repr

structure World where
  isolate : Isolate
  -- `none` once destroyed
  globals : List (Option Global)
  -- the calls of `Reset()` that are inside `DecRef`, innermost first
  resets : List (Nat × ResetCont)

namespace World

def new : World where
  isolate := .new
  globals := []
  resets := []

variable (world : World)

def global (id : Nat) : Option Global := world.globals.getD id none

def setGlobal (id : Nat) (entry : Option Global) : World :=
  { world with globals := world.globals.set id entry }

/-- A new `Global` object at the next address. -/
def construct (global : Global) : World :=
  { world with globals := world.globals ++ [some global] }

/-- The value a `val_` leads to. -/
def valueOf : Place → Option JSValue
  | .handle value => some value
  | .store id => (world.global id).map Global.store

/-- `IncRef_`. -/
def incRef (value : JSValue) : World :=
  { world with
    isolate := { world.isolate with runtime := world.isolate.runtime.dupValueRT value } }

/-- `DecRef_`. -/
def decRef (value : JSValue) : World :=
  { world with
    isolate := { world.isolate with runtime := world.isolate.runtime.freeValueRT value } }

/-- `GetUserData_`: only objects have any. -/
def getUserData : JSValue → Option ObjectUserData
  | .ref .object ptr => world.isolate.runtime.userData ptr
  | _ => none

/-- Write the weak callback and its parameter into the object's user data. -/
def setUserData (value : JSValue) (callback parameter : Nat) : World :=
  match value, world.getUserData value with
  | .ref _ ptr, some objectUdata =>
      { world with
        isolate := { world.isolate with
          runtime := { world.isolate.runtime with
            userData := Function.update world.isolate.runtime.userData ptr
              (some { objectUdata with callback := some callback, parameter }) } } }
  | _, _ => world

/-- The value whose reference a strong `Global` gives up, through its `isolate_`. -/
def strongValue (global : Global) : Except Fault JSValue :=
  match global.val.bind world.valueOf with
  | none => .error .nullDeref
  | some value => if global.isolate then .ok value else .error .nullDeref

/-- `PersistentBase::Reset(Isolate*, const Local<S>&)` after `Reset()`: `SetGlobal`
reads through the given handle before anything checks that it is not empty. -/
def setTo (id : Nat) (other : Option Local) : Except Fault World :=
  match other with
  | none => .error .nullDeref
  | some handle =>
      match world.isolate.deref handle with
      | none => .error .misuse
      | some value =>
          if world.isolate.runtime.Live value then
            .ok ((world.incRef value).setGlobal id (some (.strong id value)))
          else .error .misuse

/-- `Global::operator=(Global&&)` after `Reset()`; an empty source leaves the target
as it is. -/
def assignFrom (target source : Nat) : Except Fault World :=
  match world.global source with
  | none => .error .misuse
  | some rhs =>
      match rhs.val with
      | none => .ok world
      | some place =>
          match world.valueOf place with
          | none => .error .nullDeref
          | some value =>
              .ok ((world.setGlobal target (some (.takeOver target rhs value))).setGlobal source
                (some rhs.movedFrom))

/-- The rest of `PersistentBase::Reset()` after `DecRef`, and of its caller. -/
def proceed (id : Nat) (cont : ResetCont) : Except Fault World :=
  match world.global id with
  | none => .error .misuse
  | some global =>
      let after := world.setGlobal id (some global.cleared)
      match cont with
      | .reset => .ok after
      | .resetTo other => after.setTo id other
      | .moveAssign source => after.assignFrom id source
      | .destroy => .ok (after.setGlobal id none)

/-- `DecRef` has dropped a last reference: weak callbacks come before the rest. -/
def suspend (id : Nat) (global : Global) (cont : ResetCont) : World :=
  { world.setGlobal id (some { global with released := true }) with
    resets := (id, cont) :: world.resets }

/-- `PersistentBase::Reset()`, for a caller that goes on as given. -/
def reset (id : Nat) (global : Global) (cont : ResetCont) : Except Fault World :=
  if global.isStrong then
    match world.strongValue global with
    | .error fault => .error fault
    | .ok value =>
        if world.isolate.runtime.isLastReference value then
          .ok ((world.decRef value).suspend id global cont)
        else (world.decRef value).proceed id cont
  else world.proceed id cont

/-- `Global(Global&& other)`. -/
def moveConstruct (source : Nat) (other : Global) : Except Fault World :=
  let id := world.globals.length
  match other.val with
  | none =>
      .ok ((world.construct .empty).setGlobal source (some other.movedFrom))
  | some place =>
      match world.valueOf place with
      | none => .error .nullDeref
      | some value =>
          .ok ((world.construct (.takeOver id other value)).setGlobal source
            (some other.movedFrom))

/-- `PersistentBase::SetWeak`. -/
def setWeak (id : Nat) (global : Global) (callback parameter : Nat) : Except Fault World :=
  if global.isStrong then
    match global.val.bind world.valueOf with
    | none => .error .nullDeref
    | some value =>
        let after := (world.setGlobal id (some (global.weakened callback parameter))).setUserData
          value callback parameter
        (after.strongValue global).map after.decRef
  else .ok world

/-- `Local::Clone` into a fresh slot, and `IncRef` of the copy. -/
def clone (value : JSValue) : World :=
  { world with isolate := world.isolate.copyToSlot value }

/-- `PersistentBase::Get`, with the handle it returns. It does not look whether the
object is about to be freed. -/
def get (global : Global) : Except Fault (Option Local × World) :=
  match global.val.bind world.valueOf with
  | none => .error .nullDeref
  | some value =>
      if world.isolate.runtime.Allocated value then
        .ok (some (.slot world.isolate.valueAllocPos), world.clone value)
      else .error .useAfterFree

end World

inductive GlobalOp
  | construct
  | constructFrom (other : Option Local)
  | reset (id : Nat)
  | resetTo (id : Nat) (other : Option Local)
  | setWeak (id callback parameter : Nat)
  | get (id : Nat)
  | moveConstruct (source : Nat)
  | moveAssign (target source : Nat)
  | destroy (id : Nat)
  deriving DecidableEq, Repr

/-- The operations that call `Reset()`, with the object and what comes after. An
assignment of an object to itself does not. -/
def GlobalOp.resets : GlobalOp → Option (Nat × ResetCont)
  | .reset id => some (id, .reset)
  | .resetTo id other => some (id, .resetTo other)
  | .moveAssign target source => if target = source then none else some (target, .moveAssign source)
  | .destroy id => some (id, .destroy)
  | _ => none

/-- Operations on `Global` objects, the return of weak callbacks to the `Reset()` that
has set them off, the construction of an object with internal fields by a callback
wrapper, and what the handle layer and the engine do. -/
inductive WorldAction
  | global (op : GlobalOp)
  | resume
  | newInstance (ptr : Ptr) (internalFieldCount : Nat)
  | isolate (action : Action)
  deriving DecidableEq, Repr

namespace World

variable (world : World)

/-- An operation on a `Global` object that has to exist. -/
def withGlobal (id : Nat) (op : Global → Except Fault World) : Except Fault World :=
  match world.global id with
  | none => .error .misuse
  | some global => op global

def globalStep : GlobalOp → Except Fault World
  | .construct => .ok (world.construct .empty)
  | .constructFrom other =>
      (world.construct .empty).reset world.globals.length .empty (.resetTo other)
  | .reset id => world.withGlobal id fun global => world.reset id global .reset
  | .resetTo id other => world.withGlobal id fun global => world.reset id global (.resetTo other)
  | .setWeak id callback parameter =>
      world.withGlobal id fun global => world.setWeak id global callback parameter
  | .get id => world.withGlobal id fun global => (world.get global).map Prod.snd
  | .moveConstruct source => world.withGlobal source (world.moveConstruct source)
  | .moveAssign target source =>
      world.withGlobal target fun global =>
        world.withGlobal source fun _ =>
          if target = source then .ok world else world.reset target global (.moveAssign source)
  | .destroy id => world.withGlobal id fun global => world.reset id global .destroy

def resume : Except Fault World :=
  match world.resets with
  | [] => .error .misuse
  | (id, cont) :: rest => { world with resets := rest }.proceed id cont

/-- The wrapper of a construct call hangs user data on the object it makes. -/
def withInstance (ptr : Ptr) (internalFieldCount : Nat) : World :=
  let rt := world.isolate.runtime.produce (.ref .object ptr)
  { world with
    isolate := { world.isolate with
      runtime := { rt with
        userData := Function.update rt.userData ptr
          (some (Wrapper.function true internalFieldCount).newUserData) }
      others := world.isolate.others + (JSValue.ref .object ptr).refs } }

def newInstance (ptr : Ptr) (internalFieldCount : Nat) : Except Fault World :=
  if (Wrapper.function true internalFieldCount).createsInstance ∧
      world.isolate.runtime.cell ptr = .unused then
    .ok (world.withInstance ptr internalFieldCount)
  else .error .misuse

def step : Foundation.StepFn World WorldAction Fault := fun world action =>
  match action with
  | .global op => world.globalStep op
  | .resume => world.resume
  | .newInstance ptr internalFieldCount => world.newInstance ptr internalFieldCount
  | .isolate action => (world.isolate.step action).map fun isolate => { world with isolate }

end World

end QuickjsBackend
