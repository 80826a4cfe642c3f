import Mathlib.Data.List.TakeWhile
import QuickjsBackend.Engine.Value
import QuickjsBackend.Foundation.SortedMap

/-! # Templates

A template declares properties by name, in maps iterated in the order of the
names. What a function template is asked to do for a context is listed in the
order in which `GetFunction` goes through it. Property flags other than
`ReadOnly` concern the engine alone.
-/

namespace QuickjsBackend

open Foundation

/-- A name on its way through a C string, which ends it at the first NUL. -/
def cString (name : String) : String := String.ofList (name.toList.takeWhile fun c => c.toNat ≠ 0)

theorem cString_cString (name : String) : cString (cString name) = cString name := by
  unfold cString
  rw [String.toList_ofList, List.takeWhile_idem]

structure PropertyAttribute where
  readOnly : Bool
  dontEnum : Bool
  dontDelete : Bool
  deriving DecidableEq, Repr

/-- `ObjectTemplate::AccessorInfo`; the data are the raw value, without a
reference. -/
structure AccessorInfo where
  getter : Option Nat
  setter : Option Nat
  data : JSValue
  attributes : PropertyAttribute
  deriving DecidableEq, Repr

/-- `Template::AccessorPropertyInfo`; getter and setter are templates. -/
structure AccessorPropertyInfo where
  getter : Option Nat
  setter : Option Nat
  attributes : PropertyAttribute
  deriving DecidableEq, Repr

structure Template where
  fields : List (String × Nat)
  accessorPropertyInfos : List (String × AccessorPropertyInfo)
  deriving DecidableEq, Repr

structure ObjectTemplate extends Template where
  internalFieldCount : Int
  accessorInfos : List (String × AccessorInfo)
  deriving DecidableEq, Repr

structure FunctionTemplate extends Template where
  -- `cfunction_data_.data_`, the raw value without a reference
  data : JSValue
  callback : Nat
  instanceTemplate : Option ObjectTemplate
  prototypeTemplate : Option ObjectTemplate
  parent : Option Nat
  contextToFunction : List (Nat × JSValue)
  deriving DecidableEq, Repr

/-- One thing that `GetFunction` does before it returns: instantiate another
template, or define an accessor on the prototype. -/
inductive Task
  | getFunction (template : Nat)
  | initAccessor (name : String)
  deriving DecidableEq, Repr

namespace Template

def empty : Template where
  fields := []
  accessorPropertyInfos := []

variable (template : Template)

/-- `Template::Set`. -/
def set (name : String) (value : Nat) : Template :=
  { template with fields := assign (cString name) value template.fields }

/-- `Template::SetAccessorProperty`. -/
def setAccessorProperty (name : String) (info : AccessorPropertyInfo) : Template :=
  { template with
    accessorPropertyInfos := assign (cString name) info template.accessorPropertyInfos }

/-- The instantiations of `Template::InitPropertys`. -/
def initPropertys : List Task :=
  template.fields.map (fun field => .getFunction field.2) ++
    template.accessorPropertyInfos.flatMap fun property =>
      (property.2.getter.toList ++
        if property.2.attributes.readOnly then [] else property.2.setter.toList).map .getFunction

end Template

namespace ObjectTemplate

def empty : ObjectTemplate where
  toTemplate := .empty
  internalFieldCount := 0
  accessorInfos := []

variable (template : ObjectTemplate)

/-- `ObjectTemplate::SetAccessor`. -/
def setAccessor (name : String) (info : AccessorInfo) : ObjectTemplate :=
  { template with accessorInfos := assign (cString name) info template.accessorInfos }

/-- The iterations of `ObjectTemplate::InitAccessors`. -/
def initAccessors : List Task :=
  template.accessorInfos.map fun accessor => .initAccessor accessor.1

/-- The values kept for accessors. -/
def stored : List JSValue := template.accessorInfos.map fun accessor => accessor.2.data

end ObjectTemplate

/-- The template that a declaration is made on. -/
inductive Part
  | function
  | instanceTemplate
  | prototypeTemplate
  deriving DecidableEq, Repr

/-- Declarations other than those that come with data. -/
inductive Declaration
  | set (part : Part) (name : String) (value : Nat)
  | setAccessorProperty (part : Part) (name : String) (info : AccessorPropertyInfo)
  | setInternalFieldCount (part : Part) (value : Int)
  | inherit (parent : Nat)
  deriving DecidableEq, Repr

namespace FunctionTemplate

/-- `FunctionTemplate::New`. -/
def new (callback : Nat) (data : JSValue) : FunctionTemplate where
  toTemplate := .empty
  data := data
  callback := callback
  instanceTemplate := none
  prototypeTemplate := none
  parent := none
  contextToFunction := []

variable (template : FunctionTemplate)

/-- `InstanceTemplate()` and `PrototypeTemplate()` make the object template when
they are first asked for it. -/
def onObject (part : Part) (change : ObjectTemplate → ObjectTemplate) : FunctionTemplate :=
  match part with
  | .function => template
  | .instanceTemplate =>
      { template with
        instanceTemplate := some (change (template.instanceTemplate.getD .empty)) }
  | .prototypeTemplate =>
      { template with
        prototypeTemplate := some (change (template.prototypeTemplate.getD .empty)) }

/-- A change of what all templates have. -/
def onTemplate (part : Part) (change : Template → Template) : FunctionTemplate :=
  match part with
  | .function => { template with toTemplate := change template.toTemplate }
  | _ => template.onObject part fun object => { object with toTemplate := change object.toTemplate }

def declare : Declaration → FunctionTemplate
  | .set part name value => template.onTemplate part fun base => base.set name value
  | .setAccessorProperty part name info =>
      template.onTemplate part fun base => base.setAccessorProperty name info
  | .setInternalFieldCount part value =>
      template.onObject part fun object => { object with internalFieldCount := value }
  | .inherit parent => { template with parent := some parent }

/-- `is_construtor_`. -/
def isConstrutor : Bool :=
  template.prototypeTemplate.isSome || template.instanceTemplate.isSome ||
    !template.fields.isEmpty || !template.accessorPropertyInfos.isEmpty || template.parent.isSome

/-- `internal_field_count_`. -/
def internalFieldCount : Int := (template.instanceTemplate.map (·.internalFieldCount)).getD 0

/-- The `func_data` of the function that `GetFunction` makes. -/
def funcData : List JSValue :=
  [.external template.callback, .int (BitVec.ofInt 32 template.internalFieldCount), template.data,
    .bool template.isConstrutor]

/-- What `GetFunction` does for a constructor, the parent last. -/
def tasks : List Task :=
  if template.isConstrutor then
    (match template.prototypeTemplate with
      | none => []
      | some object => object.initPropertys ++ object.initAccessors) ++
    template.initPropertys ++ template.parent.toList.map .getFunction
  else []

/-- The raw values the template keeps. -/
def stored : List JSValue :=
  template.data :: ((template.instanceTemplate.map ObjectTemplate.stored).getD [] ++
    (template.prototypeTemplate.map ObjectTemplate.stored).getD [])

end FunctionTemplate

namespace AccessorInfo

variable (info : AccessorInfo)

/-- The `func_data` of the getter that `InitAccessors` makes. -/
def getterData (name : JSValue) : Option (List JSValue) :=
  info.getter.map fun getter => [.external getter, name, info.data]

/-- The `func_data` of the setter, which a read-only accessor does not get. -/
def setterData (name : JSValue) : Option (List JSValue) :=
  if info.attributes.readOnly then none
  else info.setter.map fun setter => [.external setter, name, info.data]

variable {info} {name : JSValue} {values : List JSValue}

theorem length_getterData (hvalues : values ∈ info.getterData name) : values.length = 3 := by
  rw [getterData, Option.mem_def, Option.map_eq_some_iff] at hvalues
  obtain ⟨_, _, rfl⟩ := hvalues
  rfl

theorem length_setterData (hvalues : values ∈ info.setterData name) : values.length = 3 := by
  rw [setterData] at hvalues
  split at hvalues
  next => cases hvalues
  next =>
    rw [Option.mem_def, Option.map_eq_some_iff] at hvalues
    obtain ⟨_, _, rfl⟩ := hvalues
    rfl

end AccessorInfo

/-- Where tables agree in what a function tells of their entries, both have one. -/
theorem exists_of_map_eq {α β : Type} {f : α → β} {now before : Option α} {entry : α}
    (hsame : now.map f = before.map f) (hentry : before = some entry) :
    ∃ found, now = some found ∧ f found = f entry := by
  rwa [hentry, Option.map_some, Option.map_eq_some_iff] at hsame

end QuickjsBackend
