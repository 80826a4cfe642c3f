import QuickjsBackend.Engine.Object
import QuickjsBackend.Foundation.Program
import QuickjsBackend.Template.Template

/-! # The objects that `GetFunction` makes

`GetFunction` and `InitPropertys` call each other, along the templates that are
declared as properties and the parent. The function of a template is cached only
when the call returns. Each call takes one unit of fuel.
-/

namespace QuickjsBackend

open Foundation

/-- The heap and the templates. -/
structure Build where
  heap : Heap
  table : List FunctionTemplate

abbrev Builder := Program Build

/-- The flags an accessor is defined with: `JS_PROP_CONFIGURABLE` and
`JS_PROP_ENUMERABLE` come without their `JS_PROP_HAS_` bits. -/
def PropertyAttribute.accessorFlags (attributes : PropertyAttribute) (hasGet hasSet : Bool) :
    DefineFlags where
  configurable := !attributes.dontDelete
  writable := hasSet
  enumerable := !attributes.dontEnum
  hasConfigurable := false
  hasWritable := false
  hasEnumerable := false
  hasGet := hasGet
  hasSet := hasSet
  hasValue := false

/-- The setter that a property gets; a read-only one gets none. -/
def AccessorPropertyInfo.effectiveSetter (info : AccessorPropertyInfo) : Option Nat :=
  if info.attributes.readOnly then none else info.setter

namespace Build

variable (build : Build)

/-- `context_to_funtion_[*context] = func`. -/
def cache (context id : Nat) (func : JSValue) : Build :=
  { build with
    table := build.table.modify id fun template => { template with
      contextToFunction := assign context func template.contextToFunction } }

end Build

namespace Builder

variable (realm : Realm) (context : Nat) (get : Nat → Builder JSValue)

def onHeap (change : Heap → Heap) : Builder PUnit :=
  modify fun build => { build with heap := change build.heap }

def newCell (cell : HeapCell) : Builder Ptr := fun build =>
  some (build.heap.length, { build with heap := build.heap ++ [cell] })

/-- `JS_NewObject`. -/
def newObject : Builder Ptr :=
  newCell (.object {
    classData := .object
    proto := some realm.objectProto
    isConstructor := false
    property := fun _ => none })

/-- `JS_NewCFunctionData`, with the properties of `js_function_set_properties`. -/
def newCFunctionData (funcData : List JSValue) : Builder Ptr := do
  let func ← newCell (.object {
    classData := .cFunctionData funcData
    proto := some realm.functionProto
    isConstructor := false
    property := fun _ => none })
  onHeap fun heap => heap.definePropertyValue func "length" (.int 0) true false false
  onHeap fun heap =>
    heap.definePropertyValue func "name" (.ref .string realm.emptyString) true false false
  return func

def defineAccessor (obj : Ptr) (name : String) (getter setter : Option JSValue)
    (attributes : PropertyAttribute) : Builder PUnit :=
  onHeap fun heap =>
    heap.defineProperty obj name .undefined (getter.getD .undefined) (setter.getD .undefined)
      (attributes.accessorFlags getter.isSome setter.isSome)

/-- An iteration over `fields_`. -/
def initField (obj : Ptr) (field : String × Nat) : Builder PUnit := do
  let func ← get field.2
  onHeap fun heap => heap.definePropertyValue obj field.1 func true true true

/-- An iteration over `accessor_property_infos_`. -/
def initAccessorProperty (obj : Ptr) (property : String × AccessorPropertyInfo) :
    Builder PUnit := do
  let getter ← property.2.getter.mapM get
  let setter ← property.2.effectiveSetter.mapM get
  defineAccessor obj property.1 getter setter property.2.attributes

/-- `Template::InitPropertys`. -/
def initPropertys (template : Template) (obj : Ptr) : Builder PUnit := do
  template.fields.forM (initField get obj)
  template.accessorPropertyInfos.forM (initAccessorProperty get obj)

/-- An iteration over `accessor_infos_`. -/
def initAccessor (obj : Ptr) (accessor : String × AccessorInfo) : Builder PUnit := do
  let name ← newCell (.string accessor.1)
  let getter ← (accessor.2.getterData (.ref .string name)).mapM (newCFunctionData realm)
  let setter ← (accessor.2.setterData (.ref .string name)).mapM (newCFunctionData realm)
  defineAccessor obj accessor.1 (getter.map (.ref .object)) (setter.map (.ref .object))
    accessor.2.attributes

/-- `ObjectTemplate::InitAccessors`. -/
def initAccessors (object : ObjectTemplate) (obj : Ptr) : Builder PUnit :=
  object.accessorInfos.forM (initAccessor realm obj)

def initPrototype (object : Option ObjectTemplate) (proto : Ptr) : Builder PUnit :=
  match object with
  | none => return PUnit.unit
  | some object => do
      initPropertys get object.toTemplate proto
      initAccessors realm object proto

/-- The prototype object of the parent becomes the prototype. -/
def inherit (parent : Option Nat) (proto : Ptr) : Builder PUnit :=
  match parent with
  | none => return PUnit.unit
  | some parent => do
      let parentFunc ← get parent
      onHeap fun heap => realm.inheritFrom heap proto parentFunc

/-- What `GetFunction` does for a constructor. -/
def initConstructor (template : FunctionTemplate) (func : Ptr) : Builder PUnit := do
  onHeap fun heap => heap.setConstructorBit func true
  let proto ← newObject realm
  initPrototype realm get template.prototypeTemplate proto
  initPropertys get template.toTemplate func
  onHeap fun heap => heap.setConstructor func proto
  inherit realm get template.parent proto

def initFunction (template : FunctionTemplate) (func : Ptr) : Builder PUnit :=
  if template.isConstrutor then initConstructor realm get template func else return PUnit.unit

/-- `GetFunction` from where the cache has no function. -/
def makeFunction (id : Nat) (template : FunctionTemplate) : Builder JSValue := do
  let func ← newCFunctionData realm template.funcData
  initFunction realm get template func
  modify fun build => build.cache context id (.ref .object func)
  return .ref .object func

/-- `FunctionTemplate::GetFunction`. -/
def getFunction : Nat → Nat → Builder JSValue
  | 0, _ => fun _ => none
  | fuel + 1, id => fun build =>
      match build.table[id]? with
      | none => none
      | some template =>
          match template.contextToFunction.lookup context with
          | some func => some (func, build)
          | none => makeFunction realm context (getFunction fuel) id template build

/-- The object that a construct call of the function passes to its callback and
returns, when the internal field count is positive. -/
def construct (func : JSValue) (internalFieldCount : Int) : Builder Ptr := do
  let build ← MonadState.get
  newCell (.object {
    classData := .native internalFieldCount
    proto :=
      match realm.getProperty build.heap func "prototype" with
      | .ref .object proto => some proto
      | _ => none
    isConstructor := false
    property := fun _ => none })

end Builder

end QuickjsBackend
