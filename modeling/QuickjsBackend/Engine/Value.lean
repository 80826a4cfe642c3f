import Mathlib.Algebra.Group.Pi.Basic
import Mathlib.Algebra.Order.BigOperators.Group.List
import Mathlib.Algebra.Order.Pi
import Mathlib.Algebra.Order.Group.Int
import Mathlib.Algebra.Ring.Int.Defs

/-! # Engine values

A `JSValue` is a tag with a payload. Values whose tag is at least
`JS_TAG_FIRST` as an unsigned number point to a cell that counts its
references; the layer adds a tag of its own above `JS_TAG_FLOAT64` for external
pointers.
-/

namespace QuickjsBackend

/-- Address of a reference-counted cell of the engine. -/
abbrev Ptr := Nat

/-- The negative tags, all of them reference counted. -/
inductive RefTag
  | bigDecimal
  | bigInt
  | bigFloat
  | symbol
  | string
  | module
  | functionBytecode
  | object
  deriving DecidableEq, Repr

/-- Numeric value of a negative tag. -/
def RefTag.code : RefTag → Int
  | .bigDecimal => -11
  | .bigInt => -10
  | .bigFloat => -9
  | .symbol => -8
  | .string => -7
  | .module => -3
  | .functionBytecode => -2
  | .object => -1

/-- Cells that the collector keeps in its lists. `__JS_FreeValueRT` queues them, the
memory of the others it gives back at once. -/
def RefTag.isQueued : RefTag → Bool
  | .object | .functionBytecode => true
  | _ => false

/-- `JSGCPhaseEnum`. -/
inductive GcPhase
  | none
  | decref
  | removeCycles
  deriving DecidableEq, Repr

inductive JSValue
  | ref (tag : RefTag) (ptr : Ptr)
  | int (value : BitVec 32)
  | bool (value : Bool)
  | null
  | undefined
  | uninitialized
  | catchOffset (value : BitVec 32)
  | exception
  | float64 (bits : BitVec 64)
  | external (address : Nat)
  deriving DecidableEq, Repr

namespace JSValue

/-- `JS_TAG_FIRST`. -/
def tagFirst : Int := -11

/-- `JS_TAG_FLOAT64`. -/
def tagFloat64 : Int := 7

/-- `JS_VALUE_GET_TAG`; the external tag is `JS_TAG_FLOAT64 + 1`. -/
def tag : JSValue → Int
  | .ref kind _ => kind.code
  | .int _ => 0
  | .bool _ => 1
  | .null => 2
  | .undefined => 3
  | .uninitialized => 4
  | .catchOffset _ => 5
  | .exception => 6
  | .float64 _ => tagFloat64
  | .external _ => tagFloat64 + 1

/-- `JS_VALUE_HAS_REF_COUNT`: an unsigned comparison of 32-bit tags. -/
def hasRefCount (value : JSValue) : Bool :=
  (BitVec.ofInt 32 tagFirst).ule (BitVec.ofInt 32 value.tag)

theorem hasRefCount_ref (kind : RefTag) (ptr : Ptr) : (ref kind ptr).hasRefCount = true := by
  cases kind <;> rfl

/-- `JS_IsUndefined`. -/
def isUndefined (value : JSValue) : Bool := value = .undefined

/-- `JS_IsNull`. -/
def isNull (value : JSValue) : Bool := value = .null

/-- `JS_IsException`. -/
def isException (value : JSValue) : Bool := value = .exception

/-- One reference to the cell the value points to, none for other values. -/
def refs : JSValue → Ptr → Int
  | .ref _ ptr, cell => if ptr = cell then 1 else 0
  | _, _ => 0

theorem refs_nonneg (value : JSValue) : 0 ≤ value.refs := by
  intro cell
  cases value with
  | ref kind ptr =>
      simp only [refs, Pi.zero_apply]
      split <;> omega
  | _ => exact le_refl _

@[simp] theorem refs_undefined : undefined.refs = 0 := rfl

@[simp] theorem refs_ref_self (kind : RefTag) (ptr : Ptr) : (ref kind ptr).refs ptr = 1 := by
  simp [refs]

/-- A value carries no reference exactly when its tag has no reference count. -/
theorem refs_eq_zero_iff {value : JSValue} : value.refs = 0 ↔ value.hasRefCount = false := by
  cases value with
  | ref kind ptr =>
      constructor
      · intro hzero
        have hone := refs_ref_self kind ptr
        rw [hzero, Pi.zero_apply] at hone
        omega
      · intro hcount
        simp [hasRefCount_ref] at hcount
  | _ => exact ⟨fun _ => by rfl, fun _ => by rfl⟩

end JSValue

/-- The references that go with the values of a list. -/
def totalRefs (values : List JSValue) : Ptr → Int :=
  (values.map JSValue.refs).sum

@[simp] theorem totalRefs_nil : totalRefs [] = 0 := rfl

@[simp] theorem totalRefs_cons (value : JSValue) (values : List JSValue) :
    totalRefs (value :: values) = value.refs + totalRefs values := by
  simp [totalRefs]

theorem totalRefs_append (values others : List JSValue) :
    totalRefs (values ++ others) = totalRefs values + totalRefs others := by
  rw [totalRefs, totalRefs, totalRefs, List.map_append, List.sum_append]

theorem totalRefs_nonneg (values : List JSValue) : 0 ≤ totalRefs values :=
  List.sum_nonneg (by simpa using fun value _ => value.refs_nonneg)

end QuickjsBackend
