import Mathlib.Data.String.Basic
import QuickjsBackend.Template.Inheritance
import QuickjsBackend.Template.Redefinition

/-! # The declarations of a name

Properties are declared by `Set`, `SetAccessorProperty` and `SetAccessor`, in any
order and under any names. The names go through C strings. The declarations are kept
in one map for each kind, and `GetFunction` goes over the maps one after the other:
what stands under a name in the end need not be what was declared last.
-/

namespace QuickjsBackend

open Foundation Relation

/-- `Template::Set`, `Template::SetAccessorProperty` and `ObjectTemplate::SetAccessor`. -/
inductive PropertyDeclaration
  | set (part : Part) (name : String) (value : Nat) (attributes : PropertyAttribute)
  | setAccessorProperty (part : Part) (name : String) (info : AccessorPropertyInfo)
  | setAccessor (part : Part) (name : String) (info : AccessorInfo) (hpart : part ≠ .function)

namespace PropertyDeclaration

def part : PropertyDeclaration → Part
  | .set part _ _ _ => part
  | .setAccessorProperty part _ _ => part
  | .setAccessor part _ _ _ => part

def name : PropertyDeclaration → String
  | .set _ name _ _ => name
  | .setAccessorProperty _ name _ => name
  | .setAccessor _ name _ _ => name

end PropertyDeclaration

namespace ObjectTemplate

variable (object : ObjectTemplate)

/-- `Set` drops the attributes. -/
def declareProperty : PropertyDeclaration → ObjectTemplate
  | .set _ name value _ => { object with toTemplate := object.toTemplate.set name value }
  | .setAccessorProperty _ name info =>
      { object with toTemplate := object.toTemplate.setAccessorProperty name info }
  | .setAccessor _ name info _ => object.setAccessor name info

/-- The map is in the order of its keys, which are C strings. -/
def Keyed {α : Type} (map : List (String × α)) : Prop :=
  (map.map Prod.fst).Pairwise (· < ·) ∧ ∀ key ∈ map.map Prod.fst, cString key = key

theorem Keyed.nil {α : Type} : Keyed ([] : List (String × α)) := ⟨.nil, nofun⟩

theorem Keyed.assign {α : Type} {map : List (String × α)} (hkeyed : Keyed map) (name : String)
    (value : α) : Keyed (assign (cString name) value map) := by
  refine ⟨sorted_assign hkeyed.1, fun key hkey => ?_⟩
  obtain ⟨entry, hmem, rfl⟩ := List.mem_map.mp hkey
  rcases mem_assign hmem with rfl | hmem
  · exact cString_cString name
  · exact hkeyed.2 _ (List.mem_map_of_mem hmem)

/-- All maps are like this. -/
structure Sorted : Prop where
  fields : Keyed object.fields
  accessorPropertyInfos : Keyed object.accessorPropertyInfos
  accessorInfos : Keyed object.accessorInfos

/-- The declaration is the one that its map has for the name. -/
def Records (name : String) : PropertyDeclaration → Prop
  | .set _ _ value _ => object.fields.lookup name = some value
  | .setAccessorProperty _ _ info => object.accessorPropertyInfos.lookup name = some info
  | .setAccessor _ _ info _ => object.accessorInfos.lookup name = some info

variable {object} {declaration other : PropertyDeclaration} {name : String}

theorem Sorted.declareProperty (hsorted : object.Sorted) (declaration : PropertyDeclaration) :
    (object.declareProperty declaration).Sorted := by
  cases declaration with
  | set _ name value => exact { hsorted with fields := hsorted.fields.assign name value }
  | setAccessorProperty _ name info =>
      exact { hsorted with
        accessorPropertyInfos := hsorted.accessorPropertyInfos.assign name info }
  | setAccessor _ name info =>
      exact { hsorted with accessorInfos := hsorted.accessorInfos.assign name info }

/-- A declaration of another name leaves the maps as they are at the name. -/
theorem Records.declareProperty (hrecords : object.Records name declaration)
    (hname : name ≠ cString other.name) :
    (object.declareProperty other).Records name declaration := by
  have hsame : ∀ {α : Type} (value : α) (map : List (String × α)),
      (assign (cString other.name) value map).lookup name = map.lookup name := by
    intro α value map
    rw [lookup_assign, if_neg hname]
  cases other with
  | set =>
      cases declaration with
      | set => exact (hsame _ _).trans hrecords
      | setAccessorProperty => exact hrecords
      | setAccessor => exact hrecords
  | setAccessorProperty =>
      cases declaration with
      | set => exact hrecords
      | setAccessorProperty => exact (hsame _ _).trans hrecords
      | setAccessor => exact hrecords
  | setAccessor =>
      cases declaration with
      | set => exact hrecords
      | setAccessorProperty => exact hrecords
      | setAccessor => exact (hsame _ _).trans hrecords

end ObjectTemplate

/-- The setter that an accessor gets; a read-only one gets none. -/
def AccessorInfo.effectiveSetter (info : AccessorInfo) : Option Nat :=
  if info.attributes.readOnly then none else info.setter

/-- `JS_DefineProperty` is given a getter or a setter. -/
def AccessorInfo.defines (info : AccessorInfo) : Bool :=
  info.getter.isSome || info.effectiveSetter.isSome

def AccessorPropertyInfo.defines (info : AccessorPropertyInfo) : Bool :=
  info.getter.isSome || info.effectiveSetter.isSome

namespace ObjectTemplate

variable (object : ObjectTemplate) (name : String)

/-- `SetAccessorProperty` was called for the name, with something to define. -/
def definesProperty : Bool :=
  (object.accessorPropertyInfos.lookup name).any AccessorPropertyInfo.defines

/-- `SetAccessor` was called for the name, with something to define. -/
def definesAccessor : Bool := (object.accessorInfos.lookup name).any AccessorInfo.defines

end ObjectTemplate

namespace FunctionTemplate

variable (template : FunctionTemplate)

def declareProperty : PropertyDeclaration → FunctionTemplate
  | .set part name value _ => template.declare (.set part name value)
  | .setAccessorProperty part name info => template.declare (.setAccessorProperty part name info)
  | .setAccessor part name info _ =>
      template.onObject part fun object => object.setAccessor name info

/-- What is declared on a part; the template itself has no accessors with callbacks. -/
def objectTemplate : Part → ObjectTemplate
  | .function => { ObjectTemplate.empty with toTemplate := template.toTemplate }
  | .instanceTemplate => template.instanceTemplate.getD .empty
  | .prototypeTemplate => template.prototypeTemplate.getD .empty

variable {template} {declaration : PropertyDeclaration} {declarations : List PropertyDeclaration}

end FunctionTemplate

/-- The two objects that `GetFunction` makes for a constructor. -/
inductive Product
  | function
  | prototype
  deriving DecidableEq, Repr

namespace Product

variable (product : Product)

/-- Where the properties of the object are declared. -/
def part : Part :=
  match product with
  | .function => .function
  | .prototype => .prototypeTemplate

/-- The property that `JS_SetConstructor` defines. -/
def link : String :=
  match product with
  | .function => "prototype"
  | .prototype => "constructor"

/-- It can be written and redefined afterwards. -/
def relinks : Bool :=
  match product with
  | .function => false
  | .prototype => true

/-- What is there before the declared properties, all of it open and not enumerable. -/
def native (name : String) : Option Bool :=
  match product with
  | .function => if name = "length" ∨ name = "name" then some false else none
  | .prototype => none

/-- What is there before the accessors. -/
def ground (object : ObjectTemplate) (name : String) : Option Bool :=
  if (object.fields.lookup name).isSome then some true else product.native name

/-- What stands under a name when `JS_SetConstructor` is done. -/
def finish (name : String) (linked : JSValue) (top : Option Property) : Option Property :=
  if name = product.link then
    some (.define top linked none none (.ofValue product.relinks product.relinks false))
  else top

/-- An accessor with callbacks has the attributes of what is there, and replaces all of
an accessor of functions. -/
def Receives (object : ObjectTemplate) (name : String) (info : AccessorInfo) : Prop :=
  match object.accessorPropertyInfos.lookup name with
  | none => info.attributes.Agrees (product.ground object name)
  | some under =>
      (product.ground object name = none → under.attributes.dontDelete = false) ∧
        info.attributes.Agrees
          (some ((product.ground object name).getD (!under.attributes.dontEnum))) ∧
        (under.getter.isSome = true → info.getter.isSome = true) ∧
        (under.effectiveSetter.isSome = true → info.effectiveSetter.isSome = true)

/-- The last declaration of the name comes out on top: nothing goes over it in the
order of the maps, and it goes over what is there with the attributes it has. -/
def Allows (object : ObjectTemplate) (name : String) : PropertyDeclaration → Prop
  | .set _ _ _ attributes =>
      attributes.dontEnum = false ∧ attributes.dontDelete = false ∧
        object.definesProperty name = false ∧ object.definesAccessor name = false ∧
        name ≠ product.link
  | .setAccessorProperty _ _ info =>
      info.defines = true ∧ info.attributes.Agrees (product.ground object name) ∧
        (object.definesAccessor name = true → info.attributes.dontDelete = true) ∧
        (name = product.link → info.attributes.dontDelete = true)
  | .setAccessor _ _ info _ =>
      info.defines = true ∧ product.Receives object name info ∧
        (name = product.link → info.attributes.dontDelete = true)

end Product

namespace Build

variable (build : Build) (context : Nat)

variable {build context} {realm : Realm} {floor id fuel : Nat} {func : Ptr} {next : Build}
  {template : FunctionTemplate}

/-- The function of the template, if there is one. -/
def Provides (build : Build) (context : Nat) (wanted : Option Nat) (ptr : Option Ptr) : Prop :=
  match wanted with
  | none => ptr = none
  | some id => ∃ func, build.functionOf context id = some func ∧ ptr = some func

variable {product : Product} {object : ObjectTemplate} {linked : JSValue}
  {own : String → Option Property} {name : String}

theorem Provides.unique {wanted : Option Nat} {first second : Option Ptr}
    (hfirst : build.Provides context wanted first)
    (hsecond : build.Provides context wanted second) :
    first = second := by
  cases wanted with
  | none => exact Eq.trans hfirst (Eq.symm hsecond)
  | some id =>
      obtain ⟨_, hone, rfl⟩ := hfirst
      obtain ⟨_, htwo, rfl⟩ := hsecond
      exact hone.symm.trans htwo

variable {base under top : Option Property} {slot : PropertySlot} {attributes : PropertyAttribute}

end Build

/-- The declared property comes out, under a name without a NUL and on an object that
belongs to the function. -/
def FunctionTemplate.Honours (template : FunctionTemplate) (product : Product)
    (declaration : PropertyDeclaration) : Prop :=
  cString declaration.name = declaration.name ∧
    (product = .prototype → template.keeps "prototype" = false) ∧
    product.Allows (template.objectTemplate product.part) declaration.name declaration

namespace Build

variable {realms : Nat → Realm} {build next start : Build} {realm : Realm}
  {context floor id fuel : Nat} {func : Ptr} {busy : Ptr → Prop} {product : Product} {name : String}
  {base : FunctionTemplate} {object : ObjectTemplate} {linked : JSValue}
  {own : String → Option Property} {declarations : List PropertyDeclaration}
  {declaration : PropertyDeclaration}

end Build

end QuickjsBackend
