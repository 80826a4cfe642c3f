import QuickjsBackend.Engine.Value
import QuickjsBackend.Foundation.References
import QuickjsBackend.Foundation.Run

/-! # The collector of the engine

Objects are counted. An object whose count reaches zero is freed at once or queued, and
`JS_RunGC` looks for those that only count one another. What a call of the freeing
functions has still to do is a stack of tasks.

Left out are the weak collections, the finalizers of the embedder, which run code of its
own, variable references that still lie in a frame, and the overflow of a count, which
the engine keeps in an `int`.
-/

namespace QuickjsBackend

open Foundation

/-- `JSGCObjectTypeEnum`. -/
inductive GcObjType
  | jsObject
  | functionBytecode
  | shape
  | varRef
  | asyncFunction
  | jsContext
  deriving DecidableEq, Repr

/-- Objects and bytecode are JS values, freed by `__JS_FreeValueRT`. -/
def GcObjType.isValue : GcObjType → Bool
  | .jsObject | .functionBytecode => true
  | _ => false

/-- What `mark_children` visits. -/
def GcObjType.holds : GcObjType → GcObjType → Bool
  | .jsObject, _ => true
  | .functionBytecode, child => child.isValue || child == .jsContext
  | .varRef, child | .asyncFunction, child => child.isValue
  | .shape, child => child == .jsObject
  | .jsContext, child => child.isValue || child == .shape

/-- An object with its `JSGCObjectHeader`. -/
structure GcObject where
  gcObjType : GcObjType
  refCount : Nat
  mark : Bool
  -- `free_mark` of a JS object; proof-facing in the others
  freeMark : Bool
  -- the references that `mark_children` follows and the freeing functions release
  children : List Ptr
  deriving DecidableEq, Repr

/-- What freeing an object takes from its beginning on. -/
def GcObject.work (o : GcObject) : Nat :=
  if o.freeMark then 0 else 2 * o.children.length + 2

inductive GcFault
  | assertion
  | useAfterFree
  | overRelease
  | abort
  | unfinished
  deriving DecidableEq, Repr

/-- Parts of the freeing functions: to give one reference back, the end of `free_object`
or another of them after the references in the object, and the loops of
`free_zero_refcount` and `gc_free_cycles`. -/
inductive FreeTask
  | release (ptr : Ptr)
  | finish (ptr : Ptr)
  | freeZeroRefcount
  | freeCycles
  deriving DecidableEq, Repr

/-- The collected part of a `JSRuntime`. -/
structure Collector where
  heap : Ptr → Option GcObject
  -- addresses are not used again
  created : Ptr
  gcObjList : List Ptr
  zeroRefCountList : List Ptr
  tmpObjList : List Ptr
  gcPhase : GcPhase
  tasks : List FreeTask
  -- proof-facing: the references from handles, native stacks and globals
  external : Ptr → Nat
  -- proof-facing: the values whose memory or whose content is gone
  finalized : List Ptr

/-- What the embedder and scripts do with references they hold. -/
inductive CollectorAction
  | allocate (gcObjType : GcObjType)
  | dup (ptr : Ptr)
  -- a reference moves into an object, or out of one
  | store (parent child : Ptr)
  | take (parent child : Ptr)
  | free (ptr : Ptr)
  | runGC
  deriving DecidableEq, Repr

namespace Collector

def new : Collector where
  heap _ := none
  created := 0
  gcObjList := []
  zeroRefCountList := []
  tmpObjList := []
  gcPhase := .none
  tasks := []
  external _ := 0
  finalized := []

section Definitions

variable (rt : Collector)

/-- An access to an object. -/
def object (ptr : Ptr) : Except GcFault GcObject :=
  match rt.heap ptr with
  | some o => .ok o
  | none => .error .useAfterFree

def write (ptr : Ptr) (o : GcObject) : Collector :=
  { rt with heap := Function.update rt.heap ptr (some o) }

/-- `list_del(&p->link)`, from whatever list it is in. -/
def unlink (ptr : Ptr) : Collector :=
  { rt with
    gcObjList := rt.gcObjList.erase ptr
    zeroRefCountList := rt.zeroRefCountList.erase ptr
    tmpObjList := rt.tmpObjList.erase ptr }

/-- `js_free_rt`. -/
def freeMemory (ptr : Ptr) : Collector :=
  { rt with heap := Function.update rt.heap ptr none }

/-- `list_del` and `list_add_tail` to `tmp_obj_list`. -/
def moveToTmp (ptr : Ptr) : Collector :=
  { rt.unlink ptr with tmpObjList := (rt.unlink ptr).tmpObjList ++ [ptr] }

/-- `list_del` and `list_add_tail` to `gc_obj_list`. -/
def moveToGc (ptr : Ptr) : Collector :=
  { rt.unlink ptr with gcObjList := (rt.unlink ptr).gcObjList ++ [ptr] }

/-- `mark_children` of an object with a `JS_MarkFunc`. -/
def markChildren (markFunc : Collector → Ptr → Except GcFault Collector) (o : GcObject) :
    Except GcFault Collector :=
  o.children.foldlM markFunc rt

/-- `gc_decref_child`. -/
def gcDecrefChild (ptr : Ptr) : Except GcFault Collector := do
  let o ← rt.object ptr
  if o.refCount = 0 then throw .assertion
  let rt := rt.write ptr { o with refCount := o.refCount - 1 }
  return if o.refCount - 1 = 0 ∧ o.mark = true then rt.moveToTmp ptr else rt

/-- The body of the loop in `gc_decref`. -/
def gcDecrefObject (ptr : Ptr) : Except GcFault Collector := do
  let o ← rt.object ptr
  if o.mark then throw .assertion
  let rt ← rt.markChildren gcDecrefChild o
  let o ← rt.object ptr
  let rt := rt.write ptr { o with mark := true }
  return if o.refCount = 0 then rt.moveToTmp ptr else rt

/-- `gc_decref`. An object that a step moves is marked, so that the link which
`list_for_each_safe` has read in advance stays in the list. -/
def gcDecref : Except GcFault Collector :=
  rt.gcObjList.foldlM gcDecrefObject { rt with tmpObjList := [] }

/-- `gc_scan_incref_child`. -/
def gcScanIncrefChild (ptr : Ptr) : Except GcFault Collector := do
  let o ← rt.object ptr
  if o.refCount + 1 = 1 then
    return (rt.write ptr { o with refCount := o.refCount + 1, mark := false }).moveToGc ptr
  else return rt.write ptr { o with refCount := o.refCount + 1 }

/-- `gc_scan_incref_child2`. -/
def gcScanIncrefChild2 (ptr : Ptr) : Except GcFault Collector := do
  let o ← rt.object ptr
  return rt.write ptr { o with refCount := o.refCount + 1 }

/-- The first loop of `gc_scan`, from an index of `gc_obj_list` on, which grows at its
end. -/
def gcScanFrom (rt : Collector) : Nat → Nat → Except GcFault Collector
  | 0, _ => .error .unfinished
  | fuel + 1, index =>
      match rt.gcObjList[index]? with
      | none => .ok rt
      | some ptr => do
          let o ← rt.object ptr
          if o.refCount = 0 then throw .assertion
          let rt ← (rt.write ptr { o with mark := false }).markChildren gcScanIncrefChild o
          gcScanFrom rt fuel (index + 1)

/-- The body of the second loop of `gc_scan`. -/
def gcRestoreObject (ptr : Ptr) : Except GcFault Collector := do
  let o ← rt.object ptr
  rt.markChildren gcScanIncrefChild2 o

/-- `gc_scan`. -/
def gcScan : Except GcFault Collector := do
  let rt ← rt.gcScanFrom (rt.gcObjList.length + rt.tmpObjList.length + 1) 0
  rt.tmpObjList.foldlM gcRestoreObject rt

/-- `free_object`, `free_function_bytecode` and those of the other types up to the release
of what the object refers to: the references are the tasks' now. -/
def beginFree (ptr : Ptr) (o : GcObject) : Collector :=
  { rt.write ptr { o with children := [], freeMark := true } with
    tasks := o.children.map .release ++ .finish ptr :: rt.tasks }

/-- `list_del` and `list_add` to `gc_zero_ref_count_list`. -/
def queue (ptr : Ptr) : Collector :=
  { rt.unlink ptr with zeroRefCountList := ptr :: (rt.unlink ptr).zeroRefCountList }

/-- `list_del` and `list_add_tail` to `gc_zero_ref_count_list`. -/
def keepZombie (ptr : Ptr) : Collector :=
  { rt.unlink ptr with zeroRefCountList := (rt.unlink ptr).zeroRefCountList ++ [ptr] }

/-- `__JS_FreeValueRT` of an object or of bytecode. -/
def freeValueRT (ptr : Ptr) : Collector :=
  match rt.gcPhase with
  | .removeCycles => rt
  | .decref => rt.queue ptr
  | .none => { rt.queue ptr with gcPhase := .decref, tasks := .freeZeroRefcount :: rt.tasks }

/-- One reference is given back: `JS_FreeValueRT` of a value, `js_free_shape`,
`free_var_ref`, `js_async_function_free` and `JS_FreeContext` of the others. -/
def release (ptr : Ptr) : Except GcFault Collector := do
  let o ← rt.object ptr
  if o.refCount = 0 then throw .overRelease
  let freed : GcObject := { o with refCount := o.refCount - 1 }
  if freed.refCount ≠ 0 then return rt.write ptr freed
  else if o.gcObjType.isValue then return (rt.write ptr freed).freeValueRT ptr
  else return (rt.write ptr freed).beginFree ptr freed

/-- The class finalizer, `remove_gc_object` and `js_free_rt`. -/
def finish (ptr : Ptr) : Except GcFault Collector := do
  let o ← rt.object ptr
  if o.gcObjType.isValue then
    if rt.gcPhase = .removeCycles ∧ o.refCount ≠ 0 then
      return { rt.keepZombie ptr with finalized := ptr :: rt.finalized }
    else return { (rt.unlink ptr).freeMemory ptr with finalized := ptr :: rt.finalized }
  else return (rt.unlink ptr).freeMemory ptr

/-- The body of the loop at the end of `gc_free_cycles`. -/
def freeZombie (ptr : Ptr) : Except GcFault Collector := do
  let o ← rt.object ptr
  if o.gcObjType.isValue then return rt.freeMemory ptr else throw .assertion

/-- The end of `gc_free_cycles`: the memory of what was left with a count. -/
def freeZombies : Except GcFault Collector := do
  let next ← rt.zeroRefCountList.foldlM freeZombie rt
  return { next with zeroRefCountList := [] }

/-- The task on top of the stack, over the others. -/
def stepTask (task : FreeTask) (rest : List FreeTask) : Except GcFault Collector :=
  match task with
  | .release ptr => release { rt with tasks := rest } ptr
  | .finish ptr => finish { rt with tasks := rest } ptr
  | .freeZeroRefcount =>
      match rt.zeroRefCountList with
      | [] => .ok { rt with gcPhase := .none, tasks := rest }
      | ptr :: _ => do
          let o ← rt.object ptr
          if o.refCount ≠ 0 then throw .assertion
          if o.gcObjType.isValue then return rt.beginFree ptr o else throw .abort
  | .freeCycles =>
      match rt.tmpObjList with
      | [] => freeZombies { rt with gcPhase := .none, tasks := rest }
      | ptr :: _ => do
          let o ← rt.object ptr
          if o.gcObjType.isValue then return rt.beginFree ptr o else return rt.keepZombie ptr

/-- The tasks are done one after the other. -/
def finishTasks (rt : Collector) : Nat → Except GcFault Collector
  | 0 => .error .unfinished
  | fuel + 1 =>
      match rt.tasks with
      | [] => .ok rt
      | task :: rest => do finishTasks (← rt.stepTask task rest) fuel

/-- The addresses that were given out. -/
def addresses : List Ptr := List.range rt.created

def childrenOf (ptr : Ptr) : List Ptr :=
  match rt.heap ptr with
  | some o => o.children
  | none => []

def taskWork : FreeTask → Nat
  | .release _ => 2
  | .finish _ | .freeZeroRefcount | .freeCycles => 1

def heapWork (heap : Ptr → Option GcObject) (created : Ptr) : Nat :=
  ((List.range created).map fun ptr => (heap ptr).elim 0 GcObject.work).sum

/-- The tasks that the present ones lead to are fewer. -/
def work : Nat :=
  heapWork rt.heap rt.created + (rt.tasks.map taskWork).sum + rt.tmpObjList.length

/-- A call of a freeing function, as the tasks that it consists of. -/
def perform (tasks : List FreeTask) : Except GcFault Collector :=
  finishTasks { rt with tasks := tasks } (work { rt with tasks := tasks } + 1)

/-- `JS_RunGC`. -/
def jsRunGC : Except GcFault Collector := do
  let rt ← rt.gcDecref
  let rt ← rt.gcScan
  perform { rt with gcPhase := .removeCycles } [.freeCycles]

/-- `add_gc_object` of a new object, for the one that asked for it. -/
def allocate (gcObjType : GcObjType) : Collector :=
  { rt with
    heap := Function.update rt.heap rt.created
      (some ⟨gcObjType, 1, false, false, []⟩)
    created := rt.created + 1
    gcObjList := rt.gcObjList ++ [rt.created]
    external := Function.update rt.external rt.created 1 }

/-- `JS_DupValue`, `js_dup_shape`, `JS_DupContext` and the others. -/
def dup (ptr : Ptr) : Except GcFault Collector := do
  let o ← rt.object ptr
  return { rt.write ptr { o with refCount := o.refCount + 1 } with
    external := Function.update rt.external ptr (rt.external ptr + 1) }

/-- A reference that someone has is written to a field of an object. -/
def store (parent child : Ptr) : Except GcFault Collector := do
  let o ← rt.object parent
  return { rt.write parent { o with children := child :: o.children } with
    external := Function.update rt.external child (rt.external child - 1) }

/-- A reference is moved out of a field. -/
def take (parent child : Ptr) : Except GcFault Collector := do
  let o ← rt.object parent
  return { rt.write parent { o with children := o.children.erase child } with
    external := Function.update rt.external child (rt.external child + 1) }

/-- A reference is given back by who has it. -/
def free (ptr : Ptr) : Except GcFault Collector :=
  perform { rt with external := Function.update rt.external ptr (rt.external ptr - 1) }
    [.release ptr]

def step : StepFn Collector CollectorAction GcFault
  | rt, .allocate gcObjType => .ok (rt.allocate gcObjType)
  | rt, .dup ptr => rt.dup ptr
  | rt, .store parent child => rt.store parent child
  | rt, .take parent child => rt.take parent child
  | rt, .free ptr => rt.free ptr
  | rt, .runGC => rt.jsRunGC

/-- An object that is referred to from outside, directly or through others. -/
def Reachable (ptr : Ptr) : Prop :=
  Reached rt.childrenOf rt.external ptr

/-- References are only taken from what is reachable, and only those given back that
one has. -/
def Allowed : CollectorAction → Prop
  | .allocate _ | .runGC => True
  | .dup ptr => rt.Reachable ptr
  | .store parent child => rt.Reachable parent ∧ 0 < rt.external child ∧
      ∀ o held, rt.heap parent = some o → rt.heap child = some held →
        o.gcObjType.holds held.gcObjType = true
  | .take parent child => rt.Reachable parent ∧ child ∈ rt.childrenOf parent
  | .free ptr => 0 < rt.external ptr

end Definitions

end Collector

end QuickjsBackend
