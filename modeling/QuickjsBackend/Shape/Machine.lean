import QuickjsBackend.Access.Operations
import QuickjsBackend.Engine.Object
import QuickjsBackend.Foundation.Chained
import QuickjsBackend.Foundation.Run
import QuickjsBackend.Foundation.Slots

/-! # Shapes

An object keeps the values of its own properties; their names and attributes are in its
shape, which objects that were built alike share. Shapes and objects are named by their
addresses, which are not used again, and `js_realloc` always moves a shape.
-/

namespace QuickjsBackend

open Foundation

/-- `JS_PROP_CONFIGURABLE`. -/
def jsPropConfigurable : Nat := 0

/-- `JSShapeProperty`. -/
structure JSShapeProperty where
  -- 26 bits; `hash_next` is 0 at the end of a chain
  hashNext : Nat
  flags : BitVec 6
  -- `JS_ATOM_NULL` when the property was deleted
  atom : JSAtom
  deriving DecidableEq, Repr, Inhabited

namespace JSShapeProperty

def isFree (pr : JSShapeProperty) : Bool := pr.atom == atomNull

/-- What is compared when a shape is looked for. -/
def key (pr : JSShapeProperty) : JSAtom × BitVec 6 := (pr.atom, pr.flags)

end JSShapeProperty

/-- `JSShape`; `prop` has the first `prop_count` elements, and `propHash` the
`prop_hash_mask + 1` heads that stand before the structure. -/
structure JSShape where
  refCount : Nat
  isHashed : Bool
  hash : BitVec 32
  propHash : List Nat
  propSize : Nat
  deletedPropCount : Nat
  proto : Option Ptr
  prop : List JSShapeProperty
  deriving DecidableEq, Repr

/-- `shape_hash`. -/
def shapeHash (h val : BitVec 32) : BitVec 32 := (h + val) * 0x9e370001#32

/-- `get_shape_hash`. -/
def getShapeHash (h : BitVec 32) (hashBits : Nat) : Nat := h.toNat >>> (32 - hashBits)

/-- `shape_initial_hash`, where addresses have 64 bits. -/
def shapeInitialHash (proto : Option Ptr) : BitVec 32 :=
  let address := proto.getD 0
  shapeHash (shapeHash 1 (.ofNat 32 address)) (.ofNat 32 (address / 2 ^ 32))

/-- The hash of a shape with one more property. -/
def shapePropertyHash (h : BitVec 32) (atom : JSAtom) (flags : BitVec 6) : BitVec 32 :=
  shapeHash (shapeHash h (.ofNat 32 atom)) (flags.setWidth 32)

/-- `while (new_hash_size < new_size) new_hash_size = 2 * new_hash_size`; each round adds
at least one. -/
def growHashSize (newSize : Nat) : Nat → Nat → Nat
  | 0, newHashSize => newHashSize
  | fuel + 1, newHashSize =>
      if newHashSize < newSize then growHashSize newSize fuel (2 * newHashSize) else newHashSize

/-- `while ((new_hash_size / 2) >= new_size) new_hash_size = new_hash_size / 2`. -/
def shrinkHashSize (newSize : Nat) : Nat → Nat → Nat
  | 0, newHashSize => newHashSize
  | fuel + 1, newHashSize =>
      if newSize ≤ newHashSize / 2 then shrinkHashSize newSize fuel (newHashSize / 2)
      else newHashSize

namespace JSShape

variable (sh : JSShape)

/-- `atom & hash_mask`. -/
def bucket (atom : JSAtom) : Nat := atom &&& (sh.propHash.length - 1)

def nextOf (i : Nat) : Nat := (sh.prop.getD i default).hashNext

/-- `prop = &prop[sh->prop_count++]`, which becomes the head of its chain. -/
def push (pr : JSShapeProperty) : JSShape :=
  let h := sh.bucket pr.atom
  { sh with
    prop := sh.prop ++ [{ pr with hashNext := sh.propHash.getD h 0 % 2 ^ 26 }]
    propHash := sh.propHash.set h (sh.prop.length + 1) }

/-- The loops of `resize_properties`, where deleted properties stay as they are, and of
`compact_properties`, where they go. -/
def rehash (newHashSize : Nat) (compact : Bool) : JSShape :=
  sh.prop.foldl (fun new pr =>
      if pr.isFree then
        if compact then new else { new with prop := new.prop ++ [pr] }
      else new.push pr)
    { sh with propHash := List.replicate newHashSize 0, prop := [] }

/-- The loops of `find_own_property` and of `delete_property`, which needs the property
before as well. -/
def findOwnProperty (atom : JSAtom) : Option (Option (Option Nat × Nat)) :=
  seek sh.nextOf (fun i => (sh.prop.getD i default).atom == atom) sh.prop.length none
    (sh.propHash.getD (sh.bucket atom) 0)

/-- `delete_property` from `remove property` on. -/
def removeProperty (lpr : Option Nat) (i : Nat) : JSShape :=
  let pr := sh.prop.getD i default
  let (prop, propHash) := match lpr with
    | some l =>
        let prior := sh.prop.getD l default
        (sh.prop.set l { prior with hashNext := pr.hashNext }, sh.propHash)
    | none => (sh.prop, sh.propHash.set (sh.bucket pr.atom) pr.hashNext)
  { sh with
    propHash := propHash
    deletedPropCount := sh.deletedPropCount + 1
    prop := prop.set i { pr with flags := 0, atom := atomNull } }

def setFlags (i : Nat) (flags : BitVec 6) : JSShape :=
  { sh with prop := sh.prop.set i { sh.prop.getD i default with flags := flags } }

/-- The values of the properties that were not deleted. -/
def keep {α : Type} (values : List α) : List α :=
  ((sh.prop.zip values).filter fun entry => !entry.1.isFree).map Prod.snd

end JSShape

/-- `JSObject`, as far as its own properties go; `prop` has the values of the first
`prop_count` of `propSize` allocated elements. -/
structure ShapedObject where
  shape : Ptr
  prop : List PropertySlot
  propSize : Nat
  deriving DecidableEq, Repr

inductive ShapeFault
  -- an object or a shape was read after it was freed
  | freed
  -- `js_shape_hash_unlink` runs past the end of the list
  | notLinked
  -- a chain of properties does not end
  | endless
  | outOfBounds
  | assertion
  deriving DecidableEq, Repr

structure ShapeRuntime where
  shapes : List (Option JSShape)
  objects : List (Option ShapedObject)
  shapeHash : List (List Ptr)
  shapeHashBits : Nat
  shapeHashCount : Int
  deriving DecidableEq, Repr

namespace ShapeRuntime

/-- `init_shape_hash`. -/
def new : ShapeRuntime where
  shapes := []
  objects := []
  shapeHash := List.replicate 16 []
  shapeHashBits := 4
  shapeHashCount := 0

section Definitions

variable (rt : ShapeRuntime)

def shapeAt (ptr : Ptr) : Except ShapeFault JSShape :=
  match rt.shapes.getD ptr none with
  | some sh => .ok sh
  | none => .error .freed

def objectAt (obj : Ptr) : Except ShapeFault ShapedObject :=
  match rt.objects.getD obj none with
  | some p => .ok p
  | none => .error .freed

def setShape (ptr : Ptr) (sh : JSShape) : ShapeRuntime :=
  { rt with shapes := rt.shapes.set ptr (some sh) }

def setObject (obj : Ptr) (p : ShapedObject) : ShapeRuntime :=
  { rt with objects := rt.objects.set obj (some p) }

/-- `js_shape_hash_link`. -/
def jsShapeHashLink (ptr : Ptr) : Except ShapeFault ShapeRuntime := do
  let sh ← rt.shapeAt ptr
  let h := getShapeHash sh.hash rt.shapeHashBits
  return { rt with
    shapeHash := rt.shapeHash.set h (ptr :: rt.shapeHash.getD h [])
    shapeHashCount := rt.shapeHashCount + 1 }

/-- `js_shape_hash_unlink`. -/
def jsShapeHashUnlink (ptr : Ptr) : Except ShapeFault ShapeRuntime := do
  let sh ← rt.shapeAt ptr
  let h := getShapeHash sh.hash rt.shapeHashBits
  if ptr ∈ rt.shapeHash.getD h [] then
    return { rt with
      shapeHash := rt.shapeHash.set h ((rt.shapeHash.getD h []).erase ptr)
      shapeHashCount := rt.shapeHashCount - 1 }
  else .error .notLinked

/-- The loop of `resize_shape_hash`. -/
def relink (newBits : Nat) (table : List (List Ptr)) :
    List Ptr → Except ShapeFault (List (List Ptr))
  | [] => .ok table
  | ptr :: rest => do
      let sh ← rt.shapeAt ptr
      let h := getShapeHash sh.hash newBits
      relink newBits (table.set h (ptr :: table.getD h [])) rest

/-- `resize_shape_hash`. -/
def resizeShapeHash (newShapeHashBits : Nat) : Except ShapeFault ShapeRuntime := do
  let table ← rt.relink newShapeHashBits (List.replicate (2 ^ newShapeHashBits) [])
    rt.shapeHash.flatten
  return { rt with shapeHash := table, shapeHashBits := newShapeHashBits }

/-- `js_new_shape`. -/
def jsNewShape (proto : Option Ptr) : Except ShapeFault (Ptr × ShapeRuntime) := do
  let rt ← if 2 * (rt.shapeHashCount + 1) > rt.shapeHash.length then
      rt.resizeShapeHash (rt.shapeHashBits + 1)
    else pure rt
  let sh : JSShape :=
    { refCount := 1
      isHashed := true
      hash := shapeInitialHash proto
      -- `JS_PROP_INITIAL_HASH_SIZE` and `JS_PROP_INITIAL_SIZE`
      propHash := List.replicate 4 0
      propSize := 2
      deletedPropCount := 0
      proto := proto
      prop := [] }
  let ptr := rt.shapes.length
  let rt ← { rt with shapes := rt.shapes ++ [some sh] }.jsShapeHashLink ptr
  return (ptr, rt)

/-- `js_clone_shape`. -/
def jsCloneShape (ptr : Ptr) : Except ShapeFault (Ptr × ShapeRuntime) := do
  let sh ← rt.shapeAt ptr
  return (rt.shapes.length,
    { rt with shapes := rt.shapes ++ [some { sh with refCount := 1, isHashed := false }] })

/-- `js_dup_shape`. -/
def jsDupShape (ptr : Ptr) : Except ShapeFault ShapeRuntime := do
  let sh ← rt.shapeAt ptr
  return rt.setShape ptr { sh with refCount := sh.refCount + 1 }

/-- `js_free_shape`, with `js_free_shape0`. -/
def jsFreeShape (ptr : Ptr) : Except ShapeFault ShapeRuntime := do
  let sh ← rt.shapeAt ptr
  if sh.refCount ≤ 1 then
    let rt ← if sh.isHashed then rt.jsShapeHashUnlink ptr else pure rt
    return { rt with shapes := rt.shapes.set ptr none }
  else return rt.setShape ptr { sh with refCount := sh.refCount - 1 }

/-- The shape of an object is allocated anew. -/
def moveShape (obj : Ptr) (p : ShapedObject) (sh : JSShape) : ShapeRuntime :=
  { rt with
    shapes := rt.shapes.set p.shape none ++ [some sh]
    objects := rt.objects.set obj (some { p with shape := rt.shapes.length }) }

/-- `resize_properties`. -/
def resizeProperties (obj : Ptr) (count : Nat) : Except ShapeFault ShapeRuntime := do
  let p ← rt.objectAt obj
  let sh ← rt.shapeAt p.shape
  let newSize := max count (sh.propSize * 3 / 2)
  let newHashSize := growHashSize newSize newSize sh.propHash.length
  let sh := if newHashSize ≠ sh.propHash.length then sh.rehash newHashSize false else sh
  return rt.moveShape obj { p with propSize := newSize } { sh with propSize := newSize }

/-- `compact_properties`. -/
def compactProperties (obj : Ptr) : Except ShapeFault ShapeRuntime := do
  let p ← rt.objectAt obj
  let sh ← rt.shapeAt p.shape
  let newSize := max 2 (sh.prop.length - sh.deletedPropCount)
  let newHashSize := shrinkHashSize newSize sh.propHash.length sh.propHash.length
  let new := sh.rehash newHashSize true
  if sh.isHashed ∨ newSize > sh.propSize ∨
      new.prop.length ≠ sh.prop.length - sh.deletedPropCount then .error .assertion
  else
    return rt.moveShape obj { p with prop := sh.keep p.prop, propSize := newSize }
      { new with propSize := newSize, deletedPropCount := 0 }

/-- The value of a new property is written. -/
def appendValue (obj : Ptr) (p : ShapedObject) (value : PropertySlot) :
    Except ShapeFault ShapeRuntime :=
  if p.prop.length < p.propSize then
    .ok (rt.setObject obj { p with prop := p.prop ++ [value] })
  else .error .outOfBounds

/-- `add_shape_property` for the shape of an object, whose new property is given its
value. -/
def addShapeProperty (obj : Ptr) (atom : JSAtom) (flags : BitVec 6) (value : PropertySlot) :
    Except ShapeFault ShapeRuntime := do
  let p ← rt.objectAt obj
  let sh ← rt.shapeAt p.shape
  let rt ← if sh.isHashed then rt.jsShapeHashUnlink p.shape else pure rt
  let newShapeHash := shapePropertyHash sh.hash atom flags
  let rt ← if sh.propSize ≤ sh.prop.length then rt.resizeProperties obj (sh.prop.length + 1)
    else pure rt
  let p ← rt.objectAt obj
  let sh ← rt.shapeAt p.shape
  let rt ← if sh.isHashed then
      (rt.setShape p.shape { sh with hash := newShapeHash }).jsShapeHashLink p.shape
    else pure rt
  let sh ← rt.shapeAt p.shape
  (rt.setShape p.shape (sh.push ⟨0, flags, atom⟩)).appendValue obj p value

/-- The walk along a list of the table of shapes. -/
def findShape (test : JSShape → Bool) : List Ptr → Except ShapeFault (Option Ptr)
  | [] => .ok none
  | ptr :: rest => do
      let sh ← rt.shapeAt ptr
      if test sh then return some ptr else findShape test rest

/-- `find_hashed_shape_proto`. -/
def findHashedShapeProto (proto : Option Ptr) : Except ShapeFault (Option Ptr) :=
  let h := shapeInitialHash proto
  rt.findShape (fun sh1 => sh1.hash = h ∧ sh1.proto = proto ∧ sh1.prop.length = 0)
    (rt.shapeHash.getD (getShapeHash h rt.shapeHashBits) [])

/-- `find_hashed_shape_prop`. -/
def findHashedShapeProp (sh : JSShape) (atom : JSAtom) (flags : BitVec 6) :
    Except ShapeFault (Option Ptr) :=
  let h := shapePropertyHash sh.hash atom flags
  rt.findShape (fun sh1 => sh1.hash = h ∧ sh1.proto = sh.proto ∧
      sh1.prop.map JSShapeProperty.key = sh.prop.map JSShapeProperty.key ++ [(atom, flags)])
    (rt.shapeHash.getD (getShapeHash h rt.shapeHashBits) [])

/-- `JS_NewObjectFromShape`, for a class that gives its objects no properties. -/
def jsNewObjectFromShape (shape : Ptr) : Except ShapeFault ShapeRuntime := do
  let sh ← rt.shapeAt shape
  return { rt with objects := rt.objects ++ [some ⟨shape, [], sh.propSize⟩] }

/-- `JS_NewObjectProtoClass`. -/
def newObject (proto : Option Ptr) : Except ShapeFault ShapeRuntime := do
  match ← rt.findHashedShapeProto proto with
  | some shape =>
      let rt ← rt.jsDupShape shape
      rt.jsNewObjectFromShape shape
  | none =>
      let (shape, rt) ← rt.jsNewShape proto
      rt.jsNewObjectFromShape shape

/-- `js_shape_prepare_update`. -/
def jsShapePrepareUpdate (obj : Ptr) : Except ShapeFault ShapeRuntime := do
  let p ← rt.objectAt obj
  let sh ← rt.shapeAt p.shape
  if sh.isHashed then
    if sh.refCount ≠ 1 then
      let (ptr, rt) ← rt.jsCloneShape p.shape
      let rt ← rt.jsFreeShape p.shape
      return rt.setObject obj { p with shape := ptr }
    else
      let rt ← rt.jsShapeHashUnlink p.shape
      return rt.setShape p.shape { sh with isHashed := false }
  else return rt

/-- `add_property`, with the value that its callers write. -/
def addProperty (obj : Ptr) (atom : JSAtom) (flags : BitVec 6) (value : PropertySlot) :
    Except ShapeFault ShapeRuntime := do
  let p ← rt.objectAt obj
  let sh ← rt.shapeAt p.shape
  if sh.isHashed then
    match ← rt.findHashedShapeProp sh atom flags with
    | some newSh => do
        let new ← rt.shapeAt newSh
        let rt ← rt.jsDupShape newSh
        let rt ← rt.appendValue obj ⟨newSh, p.prop,
          if new.propSize ≠ sh.propSize then new.propSize else p.propSize⟩ value
        rt.jsFreeShape p.shape
    | none =>
        if sh.refCount ≠ 1 then
          let (newSh, rt) ← rt.jsCloneShape p.shape
          let new ← rt.shapeAt newSh
          let rt ← (rt.setShape newSh { new with isHashed := true }).jsShapeHashLink newSh
          let rt ← rt.jsFreeShape p.shape
          (rt.setObject obj { p with shape := newSh }).addShapeProperty obj atom flags value
        else rt.addShapeProperty obj atom flags value
  else if sh.refCount ≠ 1 then .error .assertion
  else rt.addShapeProperty obj atom flags value

/-- `js_update_property_flags`. -/
def jsUpdatePropertyFlags (obj : Ptr) (i : Nat) (flags : BitVec 6) :
    Except ShapeFault ShapeRuntime := do
  let p ← rt.objectAt obj
  let sh ← rt.shapeAt p.shape
  if flags ≠ (sh.prop.getD i default).flags then
    let rt ← rt.jsShapePrepareUpdate obj
    let p ← rt.objectAt obj
    let sh ← rt.shapeAt p.shape
    return rt.setShape p.shape (sh.setFlags i flags)
  else return rt

/-- A property is defined with all its attributes: `JS_DefineProperty` and its kin have
looked for it before and decided that it may be. -/
def defineProperty (obj : Ptr) (atom : JSAtom) (flags : BitVec 6) (value : PropertySlot) :
    Except ShapeFault ShapeRuntime := do
  let p ← rt.objectAt obj
  let sh ← rt.shapeAt p.shape
  match sh.findOwnProperty atom with
  | none => .error .endless
  | some none => rt.addProperty obj atom flags value
  | some (some (_, i)) =>
      let rt ← rt.jsUpdatePropertyFlags obj i flags
      let p ← rt.objectAt obj
      return rt.setObject obj { p with prop := p.prop.set i value }

/-- `delete_property` of an ordinary object. -/
def deleteProperty (obj : Ptr) (atom : JSAtom) : Except ShapeFault ShapeRuntime := do
  let p ← rt.objectAt obj
  let sh ← rt.shapeAt p.shape
  match sh.findOwnProperty atom with
  | none => .error .endless
  | some none => return rt
  | some (some (lpr, i)) =>
      if (sh.prop.getD i default).flags.getLsbD jsPropConfigurable = false then return rt
      else
        let rt ← rt.jsShapePrepareUpdate obj
        let p ← rt.objectAt obj
        let sh ← rt.shapeAt p.shape
        let sh := sh.removeProperty lpr i
        let rt := (rt.setShape p.shape sh).setObject obj
          { p with prop := p.prop.set i (.value .undefined) }
        if 8 ≤ sh.deletedPropCount ∧ sh.prop.length / 2 ≤ sh.deletedPropCount then
          rt.compactProperties obj
        else return rt

/-- `JS_SetPrototypeInternal` once it has found no cycle. -/
def setPrototype (obj : Ptr) (proto : Option Ptr) : Except ShapeFault ShapeRuntime := do
  let p ← rt.objectAt obj
  let sh ← rt.shapeAt p.shape
  if sh.proto = proto then return rt
  else
    let rt ← rt.jsShapePrepareUpdate obj
    let p ← rt.objectAt obj
    let sh ← rt.shapeAt p.shape
    return rt.setShape p.shape { sh with proto := proto }

/-- `free_object`, as far as the shape goes. -/
def freeObject (obj : Ptr) : Except ShapeFault ShapeRuntime := do
  let p ← rt.objectAt obj
  { rt with objects := rt.objects.set obj none }.jsFreeShape p.shape

end Definitions

end ShapeRuntime

inductive ShapeAction
  | newObject (proto : Option Ptr)
  | defineProperty (obj : Ptr) (atom : JSAtom) (flags : BitVec 6) (value : PropertySlot)
  | deleteProperty (obj : Ptr) (atom : JSAtom)
  | setPrototype (obj : Ptr) (proto : Option Ptr)
  | freeObject (obj : Ptr)
  deriving DecidableEq, Repr

def ShapeRuntime.step : StepFn ShapeRuntime ShapeAction ShapeFault
  | rt, .newObject proto => rt.newObject proto
  | rt, .defineProperty obj atom flags value => rt.defineProperty obj atom flags value
  | rt, .deleteProperty obj atom => rt.deleteProperty obj atom
  | rt, .setPrototype obj proto => rt.setPrototype obj proto
  | rt, .freeObject obj => rt.freeObject obj

end QuickjsBackend
