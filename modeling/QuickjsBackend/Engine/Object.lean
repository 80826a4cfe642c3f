import Mathlib.Logic.Function.Basic
import QuickjsBackend.Engine.Value
import QuickjsBackend.Foundation.Walk

/-! # Objects of the engine

Ordinary objects with their own properties, as `JS_DefineProperty`,
`JS_GetProperty` and `JS_SetPrototype` read and write them. The callers that are
modelled ignore what these operations answer, so an operation that is refused is
one that leaves the heap as it is.
-/

namespace QuickjsBackend

open Foundation Relation

/-- What an own property holds: `JS_PROP_NORMAL` or `JS_PROP_GETSET`. -/
inductive PropertySlot
  | value (value : JSValue)
  | getset (getter setter : Option Ptr)
  deriving DecidableEq, Repr

structure Property where
  slot : PropertySlot
  configurable : Bool
  writable : Bool
  enumerable : Bool
  deriving DecidableEq, Repr

/-- The flags of `JS_DefineProperty`: attributes, and `JS_PROP_HAS_` bits. -/
structure DefineFlags where
  configurable : Bool
  writable : Bool
  enumerable : Bool
  hasConfigurable : Bool
  hasWritable : Bool
  hasEnumerable : Bool
  hasGet : Bool
  hasSet : Bool
  hasValue : Bool
  deriving DecidableEq, Repr

namespace DefineFlags

variable (flags : DefineFlags)

def hasAccessor : Bool := flags.hasGet || flags.hasSet

/-- The flags of `JS_DefinePropertyValue`. -/
def ofValue (configurable writable enumerable : Bool) : DefineFlags where
  configurable := configurable
  writable := writable
  enumerable := enumerable
  hasConfigurable := true
  hasWritable := true
  hasEnumerable := true
  hasGet := false
  hasSet := false
  hasValue := true

end DefineFlags

namespace Property

variable (property : Property)

def isGetset : Bool :=
  match property.slot with
  | .value _ => false
  | .getset _ _ => true

/-- `check_define_prop_flags`. -/
def checkDefinePropFlags (flags : DefineFlags) : Bool :=
  if property.configurable then true
  else if flags.hasConfigurable && flags.configurable then false
  else if flags.hasEnumerable && flags.enumerable != property.enumerable then false
  else if flags.hasValue || flags.hasWritable || flags.hasAccessor then
    if flags.hasAccessor != property.isGetset then false
    else if !flags.hasAccessor && !property.isGetset && !property.writable then
      !(flags.hasWritable && flags.writable)
    else true
  else true

/-- The end of `JS_DefineProperty`: attributes are replaced where the flags have
them. -/
def mask (flags : DefineFlags) : Property :=
  { property with
    configurable := if flags.hasConfigurable then flags.configurable else property.configurable
    enumerable := if flags.hasEnumerable then flags.enumerable else property.enumerable }

/-- Getter and setter are replaced where the flags have them. -/
def withAccessor (getter setter newGetter newSetter : Option Ptr) (flags : DefineFlags) :
    Property :=
  { property with
    slot := .getset (if flags.hasGet then newGetter else getter)
      (if flags.hasSet then newSetter else setter) }

/-- Value and `JS_PROP_WRITABLE` are replaced where the flags have them. -/
def withValue (old value : JSValue) (flags : DefineFlags) : Property :=
  { property with
    slot := .value (if flags.hasValue then value else old)
    writable := if flags.hasWritable then flags.writable else property.writable }

/-- `JS_DefineProperty` for a property that exists; `none` if it is refused, or if
the value of a read-only property is the same. -/
def redefine (value : JSValue) (getter setter : Option Ptr) (flags : DefineFlags) :
    Option Property :=
  if property.checkDefinePropFlags flags then
    if flags.hasAccessor then
      match property.slot with
      | .value _ =>
          -- convert to getset
          some (({ property with writable := false }.withAccessor none none getter setter
            flags).mask flags)
      | .getset oldGetter oldSetter =>
          if !property.configurable &&
              (flags.hasGet && getter != oldGetter || flags.hasSet && setter != oldSetter) then
            none
          else some ((property.withAccessor oldGetter oldSetter getter setter flags).mask flags)
    else if flags.hasValue || flags.hasWritable then
      match property.slot with
      | .getset _ _ =>
          -- convert to data descriptor
          some (({ property with writable := false }.withValue .undefined value flags).mask flags)
      | .value old =>
          if !property.configurable && !property.writable && flags.hasValue then none
          else some ((property.withValue old value flags).mask flags)
    else some (property.mask flags)
  else none

/-- The property that `JS_CreateProperty` adds to an ordinary object. -/
def create (value : JSValue) (getter setter : Option Ptr) (flags : DefineFlags) : Property :=
  if flags.hasAccessor then
    { slot := .getset (if flags.hasGet then getter else none)
        (if flags.hasSet then setter else none)
      configurable := flags.configurable
      writable := false
      enumerable := flags.enumerable }
  else
    { slot := .value (if flags.hasValue then value else .undefined)
      configurable := flags.configurable
      writable := flags.writable
      enumerable := flags.enumerable }

/-- An own property after `JS_DefineProperty`. -/
def define (own : Option Property) (value : JSValue) (getter setter : Option Ptr)
    (flags : DefineFlags) : Property :=
  match own with
  | none => create value getter setter flags
  | some property => (property.redefine value getter setter flags).getD property

end Property

/-- Class and class data of an object. -/
inductive ObjectClass
  | object
  | cFunctionData (funcData : List JSValue)
  -- `Isolate::class_id_`, with the length of its `ObjectUserData`
  | native (internalFieldCount : Int)
  | other (isFunction : Bool)
  deriving DecidableEq, Repr

structure JSObject where
  classData : ObjectClass
  proto : Option Ptr
  isConstructor : Bool
  property : String → Option Property

namespace JSObject

variable (object : JSObject)

/-- `JS_IsFunction`. -/
def isFunction : Bool :=
  match object.classData with
  | .cFunctionData _ => true
  | .other isFunction => isFunction
  | _ => false

/-- `JS_DefineProperty` on an ordinary, extensible object. -/
def define (name : String) (value : JSValue) (getter setter : Option Ptr) (flags : DefineFlags) :
    JSObject :=
  let property := Property.define (object.property name) value getter setter flags
  { object with property := Function.update object.property name (some property) }

end JSObject

inductive HeapCell
  | string (chars : String)
  | object (object : JSObject)

/-- The cells of the engine, at their addresses. -/
abbrev Heap := List HeapCell

namespace Heap

variable (heap : Heap)

def objectAt (ptr : Ptr) : Option JSObject :=
  match heap[ptr]? with
  | some (.object object) => some object
  | _ => none

def object (value : JSValue) : Option JSObject :=
  match value with
  | .ref .object ptr => heap.objectAt ptr
  | _ => none

def modifyObject (ptr : Ptr) (change : JSObject → JSObject) : Heap :=
  match heap.objectAt ptr with
  | none => heap
  | some object => heap.set ptr (.object (change object))

/-- The address of a function, null for any other value. -/
def functionPtr (value : JSValue) : Option Ptr :=
  match value with
  | .ref .object ptr =>
      (heap.objectAt ptr).bind fun object => if object.isFunction then some ptr else none
  | _ => none

/-- `JS_DefineProperty`. -/
def defineProperty (ptr : Ptr) (name : String) (value getter setter : JSValue)
    (flags : DefineFlags) : Heap :=
  heap.modifyObject ptr fun object =>
    object.define name value (heap.functionPtr getter) (heap.functionPtr setter) flags

/-- `JS_DefinePropertyValue`. -/
def definePropertyValue (ptr : Ptr) (name : String) (value : JSValue)
    (configurable writable enumerable : Bool) : Heap :=
  heap.defineProperty ptr name value .undefined .undefined
    (.ofValue configurable writable enumerable)

/-- `JS_SetConstructor`. -/
def setConstructor (func proto : Ptr) : Heap :=
  (heap.definePropertyValue func "prototype" (.ref .object proto) false false false)
    |>.definePropertyValue proto "constructor" (.ref .object func) true true false

/-- `JS_SetConstructorBit`. -/
def setConstructorBit (func : Ptr) (value : Bool) : Heap :=
  heap.modifyObject func fun object => { object with isConstructor := value }

def protoOf (ptr : Ptr) : Option Ptr := (heap.objectAt ptr).bind JSObject.proto

/-- The prototypes of an object, nearest first. -/
def protoChain (ptr : Ptr) : List Ptr := walk heap.protoOf heap.length ptr

/-- The first own property of a name in an object or its prototypes. -/
def findProperty (ptr : Ptr) (name : String) : Option Property :=
  (ptr :: heap.protoChain ptr).findSome? fun holder =>
    (heap.objectAt holder).bind fun object => object.property name

/-- `JS_SetPrototype`; it is refused for anything but an object or null, and where
it would close a cycle. -/
def setPrototype (ptr : Ptr) (proto : JSValue) : Heap :=
  match proto with
  | .null => heap.modifyObject ptr fun object => { object with proto := none }
  | .ref .object target =>
      if ptr ∈ target :: heap.protoChain target then heap
      else heap.modifyObject ptr fun object => { object with proto := some target }
  | _ => heap

section Lemmas

variable {heap : Heap} {ptr other : Ptr} {object : JSObject}

theorem lt_length_of_objectAt (hobject : heap.objectAt ptr = some object) : ptr < heap.length := by
  unfold objectAt at hobject
  split at hobject
  next found hfound => exact (List.getElem?_eq_some_iff.mp hfound).1
  next => cases hobject

theorem objectAt_append (cell : HeapCell) (hlt : ptr < heap.length) :
    objectAt (heap ++ [cell]) ptr = heap.objectAt ptr := by
  rw [objectAt, objectAt, List.getElem?_append_left hlt]

theorem objectAt_append_new (object : JSObject) :
    objectAt (heap ++ [.object object]) heap.length = some object := by
  rw [objectAt, List.getElem?_concat_length]

@[simp] theorem length_modifyObject (change : JSObject → JSObject) :
    (heap.modifyObject ptr change).length = heap.length := by
  unfold modifyObject
  split
  next => rfl
  next => exact List.length_set

theorem objectAt_modifyObject (change : JSObject → JSObject) :
    (heap.modifyObject ptr change).objectAt other =
      if other = ptr then (heap.objectAt ptr).map change else heap.objectAt other := by
  unfold modifyObject
  cases hobject : heap.objectAt ptr with
  | none =>
      by_cases heq : other = ptr
      · rw [if_pos heq, Option.map_none, heq]
        exact hobject
      · rw [if_neg heq]
  | some object =>
      have hlt := lt_length_of_objectAt hobject
      by_cases heq : other = ptr
      · rw [if_pos heq, Option.map_some, heq]
        simp only [objectAt, List.getElem?_set_self hlt]
      · rw [if_neg heq]
        simp only [objectAt, List.getElem?_set_ne fun h => heq h.symm]

theorem string_modifyObject {chars : String} (change : JSObject → JSObject)
    (hstring : heap[other]? = some (.string chars)) :
    (heap.modifyObject ptr change)[other]? = some (.string chars) := by
  unfold modifyObject
  cases hobject : heap.objectAt ptr with
  | none => exact hstring
  | some object =>
      have hne : ptr ≠ other := by
        rintro rfl
        simp only [objectAt, hstring, reduceCtorEq] at hobject
      exact (List.getElem?_set_ne hne).trans hstring

@[simp] theorem length_defineProperty (name : String) (value getter setter : JSValue)
    (flags : DefineFlags) :
    (heap.defineProperty ptr name value getter setter flags).length = heap.length :=
  length_modifyObject _

/-- The prototypes are what the links lead to. -/
theorem mem_protoChain_iff : other ∈ heap.protoChain ptr ↔
    TransGen (fun first second => heap.protoOf first = some second) ptr other := by
  apply mem_walk_iff
  intro first second hlink
  unfold protoOf at hlink
  cases hobject : heap.objectAt first with
  | none =>
      rw [hobject, Option.bind_none] at hlink
      cases hlink
  | some object => exact lt_length_of_objectAt hobject

end Lemmas

end Heap

/-- What a context brings along: its function and object prototypes, the string of
`JS_ATOM_empty_string`, and what calling a getter answers. -/
structure Realm where
  functionProto : Ptr
  objectProto : Ptr
  emptyString : Ptr
  callGetter : Heap → Ptr → JSValue → JSValue

namespace Realm

variable (realm : Realm)

/-- `JS_GetProperty` of an ordinary object; it is asked of functions only. -/
def getProperty (heap : Heap) (this : JSValue) (name : String) : JSValue :=
  match this with
  | .ref .object ptr =>
      match heap.findProperty ptr name with
      | none => .undefined
      | some property =>
          match property.slot with
          | .value value => value
          | .getset none _ => .undefined
          | .getset (some getter) _ => realm.callGetter heap getter this
  | _ => .undefined

/-- The prototype object of the function becomes the prototype. -/
def inheritFrom (heap : Heap) (ptr : Ptr) (func : JSValue) : Heap :=
  heap.setPrototype ptr (realm.getProperty heap func "prototype")

end Realm

end QuickjsBackend
