import QuickjsBackend.Engine.Layout
import QuickjsBackend.Access.Operations

/-! # Conversions to integers and booleans

Integers come out of a value through casts of the double that the engine reads from
it, or through the engine's conversion modulo a power of two. `ToInt32`, `ToInteger`
and `ToBoolean` convert nothing: they return the value under another type, and the
accessor of that type reads it as it is.
-/

namespace QuickjsBackend

open Foundation

/-- What `JS_ToNumberFree` answers. -/
inductive JSNumber
  | int (value : BitVec 32)
  | float64 (bits : BitVec 64)

/-- The double with the value of a number. -/
def JSNumber.bits : JSNumber → BitVec 64
  | .int value => Double.ofInt value.toInt
  | .float64 bits => bits

/-- The layout of values, what the engine makes of values that hold no number (nothing
when it throws), and what the compiler makes of casts out of range. -/
structure Numeric where
  nanBoxing : Bool
  toNumberFree : JSValue → Option JSNumber
  outOfInt32 : BitVec 64 → BitVec 32
  outOfUint32 : BitVec 64 → BitVec 32
  outOfInt64 : BitVec 64 → BitVec 64

namespace Numeric

variable (numeric : Numeric)

/-- The doubles whose integer part an `int32_t` holds. -/
def InInt32 (d : BitVec 64) : Prop := -2 ^ 31 ≤ Double.truncate d ∧ Double.truncate d < 2 ^ 31

def InUint32 (d : BitVec 64) : Prop := 0 ≤ Double.truncate d ∧ Double.truncate d < 2 ^ 32

def InInt64 (d : BitVec 64) : Prop := -2 ^ 63 ≤ Double.truncate d ∧ Double.truncate d < 2 ^ 63

instance (d : BitVec 64) : Decidable (InInt32 d) := inferInstanceAs (Decidable (_ ∧ _))

instance (d : BitVec 64) : Decidable (InUint32 d) := inferInstanceAs (Decidable (_ ∧ _))

instance (d : BitVec 64) : Decidable (InInt64 d) := inferInstanceAs (Decidable (_ ∧ _))

/-- `(int32_t)d`. -/
def castInt32 (d : BitVec 64) : BitVec 32 :=
  if InInt32 d then BitVec.ofInt 32 (Double.truncate d) else numeric.outOfInt32 d

/-- `(uint32_t)d`. -/
def castUint32 (d : BitVec 64) : BitVec 32 :=
  if InUint32 d then BitVec.ofInt 32 (Double.truncate d) else numeric.outOfUint32 d

/-- `(int64_t)d`. -/
def castInt64 (d : BitVec 64) : BitVec 64 :=
  if InInt64 d then BitVec.ofInt 64 (Double.truncate d) else numeric.outOfInt64 d

/-- `JS_ToNumberFree`, nothing when it throws. -/
def toNumber : JSValue → Option JSNumber
  | .int value => some (.int value)
  | .float64 bits => some (.float64 bits)
  | .bool value => some (.int (if value then 1 else 0))
  | .null => some (.int 0)
  | .undefined => some (.float64 Double.nan)
  | value => numeric.toNumberFree value

/-- `JS_ToFloat64`. -/
def toFloat64 : JSValue → Option (BitVec 64)
  | .int value => some (Double.ofInt value.toInt)
  | .bool value => some (Double.ofInt (if value then 1 else 0))
  | .null => some (Double.ofInt 0)
  | .float64 bits => some bits
  | value => (numeric.toNumber value).map JSNumber.bits

/-- The case of doubles in `JS_ToInt32Free`. -/
def int32OfFloat64 (d : BitVec 64) : BitVec 32 :=
  let e := Double.exponent d
  if e ≤ 1023 + 30 then numeric.castInt32 d
  else if e ≤ 1023 + 30 + 53 then
    let v := BitVec.ofNat 64 (Double.fraction d ||| 2 ^ 52) <<< (e - 1023 - 52 + 32 : Int).toNat
    let ret := (v >>> 32).setWidth 32
    if Double.negative d then -ret else ret
  else 0

/-- `JS_ToInt32Free` of the number it goes on with. -/
def int32OfNumber : JSNumber → BitVec 32
  | .int value => value
  | .float64 bits => numeric.int32OfFloat64 bits

/-- `JS_ToInt32`, nothing when it throws. -/
def toInt32 : JSValue → Option (BitVec 32)
  | .int value => some value
  | .bool value => some (if value then 1 else 0)
  | .null => some 0
  | .undefined => some 0
  | .float64 bits => some (numeric.int32OfFloat64 bits)
  | value => (numeric.toNumber value).map numeric.int32OfNumber

/-- The case of doubles in `JS_ToInt64Free`. -/
def int64OfFloat64 (d : BitVec 64) : BitVec 64 :=
  let e := Double.exponent d
  if e ≤ 1023 + 62 then numeric.castInt64 d
  else if e ≤ 1023 + 62 + 53 then
    let ret := BitVec.ofNat 64 (Double.fraction d ||| 2 ^ 52) <<< (e - 1023 - 52)
    if Double.negative d then -ret else ret
  else 0

/-- `JS_ToInt64Free` of the number it goes on with. -/
def int64OfNumber : JSNumber → BitVec 64
  | .int value => value.signExtend 64
  | .float64 bits => numeric.int64OfFloat64 bits

/-- `JS_ToInt64`, nothing when it throws. -/
def toInt64 : JSValue → Option (BitVec 64)
  | .int value => some (value.signExtend 64)
  | .bool value => some (if value then 1 else 0)
  | .null => some 0
  | .undefined => some 0
  | .float64 bits => some (numeric.int64OfFloat64 bits)
  | value => (numeric.toNumber value).map numeric.int64OfNumber

/-- Whether a stored double has `JS_TAG_FLOAT64` itself as its tag. -/
def hasFloat64Tag (d : BitVec 64) : Bool :=
  if numeric.nanBoxing then NanBoxed.getTag (NanBoxed.newFloat64 d) = Tag.float64
  else TaggedValue.getTag (TaggedValue.newFloat64 d) = Tag.float64

end Numeric

namespace Value

variable (numeric : Numeric)

/-- `Value::Int32Value`. -/
def int32Value (this : JSValue) : Option (BitVec 32) :=
  (numeric.toFloat64 this).map numeric.castInt32

/-- `Value::Uint32Value`. -/
def uint32Value (this : JSValue) : Option (BitVec 32) :=
  (numeric.toFloat64 this).map numeric.castUint32

/-- `Value::IsInt32`. -/
def isInt32 (this : JSValue) : Bool := this.isNumber

/-- `Value::IsUint32`. -/
def isUint32 (this : JSValue) : Bool := this.isNumber

/-- `Value::ToInt32`. -/
def toInt32 (this : JSValue) : JSValue := this

/-- `Value::ToInteger`. -/
def toInteger (this : JSValue) : JSValue := this

end Value

/-- `Int32::Value`; what `JS_ToInt32` leaves when it throws is zero. -/
def Int32.value (numeric : Numeric) (this : JSValue) : BitVec 32 :=
  match this with
  | .int value => value
  | .float64 bits =>
      if numeric.hasFloat64Tag bits then numeric.castInt32 bits else (numeric.toInt32 this).getD 0
  | _ => (numeric.toInt32 this).getD 0

/-- `Integer::Value`. -/
def Integer.value (numeric : Numeric) (this : JSValue) : BitVec 64 :=
  match this with
  | .int value => value.signExtend 64
  | .float64 bits =>
      if numeric.hasFloat64Tag bits then numeric.castInt64 bits else (numeric.toInt64 this).getD 0
  | _ => (numeric.toInt64 this).getD 0

/-- `ToInt32` and `ToUint32` of a number: the integer part modulo `2 ^ 32`, zero for NaN
and the infinities. -/
def Double.toInt32 (d : BitVec 64) : BitVec 32 :=
  if Double.exponent d = 2047 then 0 else BitVec.ofInt 32 (Double.truncate d)

/-- What the conversions of a value should do when its number is `d`. -/
structure Numeric.Converts (numeric : Numeric) (v : JSValue) (d : BitVec 64) : Prop where
  int32Value : Value.int32Value numeric v = some (Double.toInt32 d)
  uint32Value : Value.uint32Value numeric v = some (Double.toInt32 d)
  toInt32 : Int32.value numeric (Value.toInt32 v) = Double.toInt32 d
  toInteger : InInt64 d →
    Integer.value numeric (Value.toInteger v) = BitVec.ofInt 64 (Double.truncate d)
  casts : InInt32 d ∧ InUint32 d ∧
    ∀ bits, v = .float64 bits → numeric.hasFloat64Tag bits = true → InInt64 bits
  isInt32 : Value.isInt32 v = true ↔ v.isNumber = true ∧ ∃ i : BitVec 32, d = Double.ofInt i.toInt
  isUint32 : Value.isUint32 v = true ↔ v.isNumber = true ∧ ∃ i : BitVec 32, d = Double.ofInt i.toNat

namespace Numeric

variable (numeric : Numeric) {v : JSValue} {n : JSNumber} {d : BitVec 64}

theorem natAbs_toInt_lt (i : BitVec 32) : i.toInt.natAbs < 2 ^ 53 := by
  have hlt := i.toInt_lt
  have hle := i.le_toInt
  omega

theorem truncate_ofInt (i : BitVec 32) : Double.truncate (Double.ofInt i.toInt) = i.toInt :=
  Double.truncate_ofInt (natAbs_toInt_lt i)

theorem toFloat64_eq (v : JSValue) : numeric.toFloat64 v =
    (numeric.toNumber v).map JSNumber.bits := by
  cases v with
  | bool value => cases value <;> rfl
  | _ => rfl

/-- A number with a small integer part has a small exponent. -/
theorem exponent_le_of_truncate (hlt : (Double.truncate d).natAbs < 2 ^ 31) :
    Double.exponent d ≤ 1023 + 30 := by
  by_contra hlarge
  have hmagnitude : 2 ^ 31 ≤ (if Double.exponent d < 1023 then 0
      else if Double.exponent d ≤ 1075 then
        (2 ^ 52 + Double.fraction d) / 2 ^ (1075 - Double.exponent d)
      else (2 ^ 52 + Double.fraction d) * 2 ^ (Double.exponent d - 1075)) := by
    rw [if_neg (by omega)]
    split
    next hsmall =>
      have hpow : 2 ^ 31 * 2 ^ (1075 - Double.exponent d) ≤ 2 ^ 52 := by
        rw [← pow_add]
        exact Nat.pow_le_pow_right (by omega) (by omega)
      rw [Nat.le_div_iff_mul_le (Nat.two_pow_pos _)]
      omega
    next =>
      have hpos := Nat.two_pow_pos (Double.exponent d - 1075)
      calc 2 ^ 31 ≤ (2 ^ 52 + Double.fraction d) * 1 := by omega
        _ ≤ _ := Nat.mul_le_mul_left _ hpos
  unfold Double.truncate at hlt
  simp only at hlt
  split at hlt <;> omega

section InRange

variable (hnonneg : 0 ≤ Double.truncate d) (hlt : Double.truncate d < 2 ^ 31)
include hnonneg hlt

theorem exponent_le : Double.exponent d ≤ 1023 + 30 := exponent_le_of_truncate (by omega)

theorem castInt32_eq : numeric.castInt32 d = BitVec.ofInt 32 (Double.truncate d) :=
  if_pos ⟨by omega, hlt⟩

theorem castUint32_eq : numeric.castUint32 d = BitVec.ofInt 32 (Double.truncate d) :=
  if_pos ⟨hnonneg, by omega⟩

theorem castInt64_eq : numeric.castInt64 d = BitVec.ofInt 64 (Double.truncate d) :=
  if_pos ⟨by omega, by omega⟩

theorem int32OfFloat64_eq : numeric.int32OfFloat64 d = BitVec.ofInt 32 (Double.truncate d) := by
  have hexp := exponent_le hnonneg hlt
  rw [int32OfFloat64, if_pos hexp, numeric.castInt32_eq hnonneg hlt]

theorem int64OfFloat64_eq : numeric.int64OfFloat64 d = BitVec.ofInt 64 (Double.truncate d) := by
  have hexp := exponent_le hnonneg hlt
  rw [int64OfFloat64, if_pos (by omega), numeric.castInt64_eq hnonneg hlt]

theorem double_toInt32_eq : Double.toInt32 d = BitVec.ofInt 32 (Double.truncate d) := by
  have hexp := exponent_le hnonneg hlt
  exact if_neg (by omega)

end InRange

theorem ofInt_toInt (i : BitVec 32) :
    BitVec.ofInt 32 (Double.truncate (Double.ofInt i.toInt)) = i := by
  rw [truncate_ofInt, BitVec.ofInt_toInt]

theorem signExtend_eq (i : BitVec 32) :
    i.signExtend 64 = BitVec.ofInt 64 (Double.truncate (Double.ofInt i.toInt)) := by
  rw [truncate_ofInt, BitVec.signExtend]

theorem int32OfNumber_eq (hnonneg : 0 ≤ Double.truncate n.bits)
    (hlt : Double.truncate n.bits < 2 ^ 31) :
    numeric.int32OfNumber n = BitVec.ofInt 32 (Double.truncate n.bits) := by
  cases n with
  | int value => exact (ofInt_toInt value).symm
  | float64 bits => exact numeric.int32OfFloat64_eq hnonneg hlt

theorem int64OfNumber_eq (hnonneg : 0 ≤ Double.truncate n.bits)
    (hlt : Double.truncate n.bits < 2 ^ 31) :
    numeric.int64OfNumber n = BitVec.ofInt 64 (Double.truncate n.bits) := by
  cases n with
  | int value => exact signExtend_eq value
  | float64 bits => exact numeric.int64OfFloat64_eq hnonneg hlt

/-- The engine converts a value as the number it stands for, `undefined` apart, of which
it makes zero without a detour. -/
theorem toInt_eq_ofNumber (hnumber : numeric.toNumber v = some n) (hv : v ≠ .undefined) :
    numeric.toInt32 v = some (numeric.int32OfNumber n) ∧
      numeric.toInt64 v = some (numeric.int64OfNumber n) := by
  cases v with
  | undefined => exact absurd rfl hv
  | int value => obtain rfl := Option.some.inj hnumber; exact ⟨rfl, rfl⟩
  | float64 bits => obtain rfl := Option.some.inj hnumber; exact ⟨rfl, rfl⟩
  | bool value => obtain rfl := Option.some.inj hnumber; cases value <;> exact ⟨rfl, rfl⟩
  | null => obtain rfl := Option.some.inj hnumber; exact ⟨rfl, rfl⟩
  | _ => exact ⟨congrArg (Option.map numeric.int32OfNumber) hnumber,
      congrArg (Option.map numeric.int64OfNumber) hnumber⟩

/-- The accessors read the number a value stands for when its integer part is small. -/
theorem value_eq (hnumber : numeric.toNumber v = some n)
    (hnonneg : 0 ≤ Double.truncate n.bits) (hlt : Double.truncate n.bits < 2 ^ 31) :
    Int32.value numeric v = BitVec.ofInt 32 (Double.truncate n.bits) ∧
      Integer.value numeric v = BitVec.ofInt 64 (Double.truncate n.bits) := by
  have hv : v ≠ .undefined := by
    rintro rfl
    obtain rfl := Option.some.inj hnumber
    have hexp := exponent_le hnonneg hlt
    exact absurd hexp (by decide)
  obtain ⟨hint32, hint64⟩ := numeric.toInt_eq_ofNumber hnumber hv
  rw [numeric.int32OfNumber_eq hnonneg hlt] at hint32
  rw [numeric.int64OfNumber_eq hnonneg hlt] at hint64
  cases v with
  | int value => exact ⟨Option.some.inj hint32, Option.some.inj hint64⟩
  | float64 bits =>
      obtain rfl := Option.some.inj hnumber
      simp only [Int32.value, Integer.value, hint32, hint64, Option.getD_some]
      constructor
      · split
        · exact numeric.castInt32_eq hnonneg hlt
        · rfl
      · split
        · exact numeric.castInt64_eq hnonneg hlt
        · rfl
  | _ => simp only [Int32.value, Integer.value, hint32, hint64, Option.getD_some, and_self]

/-- All routes to an integer agree, and none casts out of range, exactly for values
whose number has a nonnegative integer part below `2 ^ 31` and, when they are numbers
themselves, is that integer. -/
theorem converts_iff (hnumber : numeric.toNumber v = some n) :
    numeric.Converts v n.bits ↔
      (0 ≤ Double.truncate n.bits ∧ Double.truncate n.bits < 2 ^ 31) ∧
        (v.isNumber = true → n.bits = Double.ofInt (Double.truncate n.bits)) := by
  constructor
  · intro hconverts
    obtain ⟨⟨_, hlt⟩, ⟨hnonneg, _⟩, _⟩ := hconverts.casts
    refine ⟨⟨hnonneg, hlt⟩, fun hv => ?_⟩
    obtain ⟨_, i, heq⟩ := hconverts.isInt32.mp hv
    rw [heq, truncate_ofInt]
  · rintro ⟨⟨hnonneg, hlt⟩, hexact⟩
    have hfloat : numeric.toFloat64 v = some n.bits := by rw [toFloat64_eq, hnumber, Option.map_some]
    have hint32 := double_toInt32_eq hnonneg hlt
    obtain ⟨hvalue32, hvalue64⟩ := numeric.value_eq hnumber hnonneg hlt
    refine ⟨?_, ?_, hvalue32.trans hint32.symm, fun _ => hvalue64, ⟨⟨by omega, hlt⟩,
      ⟨hnonneg, by omega⟩, ?_⟩, ?_, ?_⟩
    · rw [Value.int32Value, hfloat, Option.map_some, numeric.castInt32_eq hnonneg hlt, hint32]
    · rw [Value.uint32Value, hfloat, Option.map_some, numeric.castUint32_eq hnonneg hlt, hint32]
    · intro bits heq _
      rw [heq] at hnumber
      have hbits : n.bits = bits := by rw [← Option.some.inj hnumber, JSNumber.bits]
      rw [hbits] at hnonneg hlt
      exact ⟨by omega, by omega⟩
    · refine ⟨fun hv => ⟨hv, BitVec.ofInt 32 (Double.truncate n.bits), ?_⟩, And.left⟩
      rw [BitVec.toInt_ofInt, Int.bmod_eq_of_le (by omega) (by omega)]
      exact hexact hv
    · refine ⟨fun hv => ⟨hv, BitVec.ofInt 32 (Double.truncate n.bits), ?_⟩, And.left⟩
      rw [BitVec.toNat_ofInt, Int.emod_eq_of_lt hnonneg (by omega), Int.toNat_of_nonneg hnonneg]
      exact hexact hv

theorem converts_five :
    (⟨false, fun _ => none, fun _ => 0, fun _ => 0, fun _ => 0⟩ : Numeric).toNumber (.int 5) =
        some (.int 5) ∧
      ((⟨false, fun _ => none, fun _ => 0, fun _ => 0, fun _ => 0⟩ : Numeric).Converts (.int 5)
          (JSNumber.int 5).bits ↔
        (0 ≤ Double.truncate (JSNumber.int 5).bits ∧
          Double.truncate (JSNumber.int 5).bits < 2 ^ 31) ∧
          (JSValue.isNumber (.int 5) = true →
            (JSNumber.int 5).bits = Double.ofInt (Double.truncate (JSNumber.int 5).bits))) :=
  ⟨rfl, converts_iff _ rfl⟩

/-- `IsInt32` holds of one and a half. -/
theorem fraction_is_int32 :
    ¬ ∀ v n, (⟨false, fun _ => none, fun _ => 0, fun _ => 0, fun _ => 0⟩ : Numeric).toNumber v = some n →
      (⟨false, fun _ => none, fun _ => 0, fun _ => 0, fun _ => 0⟩ : Numeric).Converts v n.bits := by
  intro hall
  have hconverts := hall (.float64 0x3ff8000000000000) (.float64 0x3ff8000000000000) rfl
  obtain ⟨_, i, heq⟩ := hconverts.isInt32.mp rfl
  have hone := congrArg Double.truncate heq
  rw [truncate_ofInt] at hone
  rw [← hone] at heq
  exact absurd heq (by decide)

end Numeric

/-- The values of the language, without the marks of the engine and the tag of the
library. -/
def JSValue.isLanguageValue : JSValue → Bool
  | .ref tag _ => tag ≠ .module && tag ≠ .functionBytecode
  | .int _ => true
  | .bool _ => true
  | .null => true
  | .undefined => true
  | .float64 _ => true
  | _ => false

/-- The layout of values, and what the engine finds behind their pointers. -/
structure Cells where
  nanBoxing : Bool
  address : Ptr → BitVec 64
  stringLength : Ptr → Nat
  /-- Whether the exponent of a big number marks it as zero or NaN. -/
  bigIsZeroOrNaN : Ptr → Bool
  isHTMLDDA : Ptr → Bool

namespace Cells

variable (cells : Cells)

/-- `JS_VALUE_GET_INT`: the lower word of the payload, whatever the tag is. -/
def payload : JSValue → BitVec 32
  | .ref _ ptr => (cells.address ptr).setWidth 32
  | .int value => value
  | .bool value => if value then 1 else 0
  | .null => 0
  | .undefined => 0
  | .uninitialized => 0
  | .catchOffset value => value
  | .exception => 0
  | .float64 bits =>
      if cells.nanBoxing then NanBoxed.getInt (NanBoxed.newFloat64 bits)
      else TaggedValue.getInt (TaggedValue.newFloat64 bits)
  | .external address => BitVec.ofNat 32 address

/-- `JS_ToBoolFree` of a cell. -/
def cellToBoolFree (tag : RefTag) (ptr : Ptr) : Int :=
  match tag with
  | .string => if cells.stringLength ptr ≠ 0 then 1 else 0
  | .bigInt => if cells.bigIsZeroOrNaN ptr then 0 else 1
  | .bigFloat => if cells.bigIsZeroOrNaN ptr then 0 else 1
  | .bigDecimal => if cells.bigIsZeroOrNaN ptr then 0 else 1
  | .object => if cells.isHTMLDDA ptr then 0 else 1
  | .symbol => 1
  | .module => 1
  | .functionBytecode => 1

/-- `JS_ToBoolFree`. -/
def toBoolFree : JSValue → Int
  | .ref tag ptr => cells.cellToBoolFree tag ptr
  | .int value => if value ≠ 0 then 1 else 0
  | .bool value => if value then 1 else 0
  | .null => 0
  | .undefined => 0
  | .uninitialized => 1
  | .catchOffset _ => 1
  | .exception => -1
  | .float64 bits => if !Double.isNaN bits && !Double.isZero bits then 1 else 0
  | .external _ => if cells.nanBoxing then 0 else 1

/-- `ToBoolean` of a string, a symbol, a big number or an object. -/
def CellTruthy (tag : RefTag) (ptr : Ptr) : Prop :=
  match tag with
  | .string => cells.stringLength ptr ≠ 0
  | .bigInt => cells.bigIsZeroOrNaN ptr = false
  | .bigFloat => cells.bigIsZeroOrNaN ptr = false
  | .bigDecimal => cells.bigIsZeroOrNaN ptr = false
  | .object => cells.isHTMLDDA ptr = false
  | .symbol => True
  | .module => True
  | .functionBytecode => True

/-- `ToBoolean` of the language. -/
def Truthy : JSValue → Prop
  | .ref tag ptr => cells.CellTruthy tag ptr
  | .int value => value ≠ 0
  | .bool value => value = true
  | .null => False
  | .undefined => False
  | .float64 bits => Double.isNaN bits = false ∧ Double.isZero bits = false
  | .uninitialized => True
  | .catchOffset _ => True
  | .exception => True
  | .external _ => True

/-- The lower word that stands for a value is zero where the value is false: the lower
word of an address, or of the pattern of a double. -/
def LowWordTells : JSValue → Prop
  | .ref tag ptr => (cells.address ptr).setWidth 32 ≠ 0#32 ↔ cells.CellTruthy tag ptr
  | .float64 bits =>
      if Double.isNaN bits then cells.nanBoxing = true ∨ bits.setWidth 32 = 0#32
      else Double.isZero bits = true ∨ bits.setWidth 32 ≠ 0#32
  | _ => True

end Cells

/-- `Value::ToBoolean`. -/
def Value.toBoolean (this : JSValue) : JSValue := this

/-- `Boolean::Value`. -/
def Boolean.value (cells : Cells) (this : JSValue) : Bool := cells.payload this ≠ 0

/-- `Value::BooleanValue`. -/
def Value.booleanValue (cells : Cells) (this : JSValue) : Bool := cells.toBoolFree this ≠ 0

namespace Cells

variable (cells : Cells)

theorem booleanValue_iff {v : JSValue} (hvalue : v.isLanguageValue = true) :
    Value.booleanValue cells v = true ↔ cells.Truthy v := by
  rw [Value.booleanValue, decide_eq_true_iff]
  cases v with
  | ref tag ptr => cases tag <;> simp [toBoolFree, cellToBoolFree, Truthy, CellTruthy]
  | float64 bits => simp [toBoolFree, Truthy]
  | int value => simp [toBoolFree, Truthy]
  | bool value => simp [toBoolFree, Truthy]
  | null => simp [toBoolFree, Truthy]
  | undefined => simp [toBoolFree, Truthy]
  | _ => cases hvalue

/-- Moving a double up by the addend leaves its lower word. -/
theorem getInt_sub_addend (bits : BitVec 64) :
    NanBoxed.getInt (bits - NanBoxed.addend) = bits.setWidth 32 := by
  apply BitVec.eq_of_toNat_eq
  rw [NanBoxed.getInt, BitVec.toNat_setWidth, BitVec.toNat_setWidth, BitVec.toNat_sub,
    NanBoxed.addend_eq, BitVec.toNat_ofNat]
  omega

theorem payload_float64 (bits : BitVec 64) :
    cells.payload (.float64 bits) =
      if cells.nanBoxing = true ∧ Double.isNaN bits = true then 0 else bits.setWidth 32 := by
  rw [payload]
  by_cases hboxed : cells.nanBoxing = true
  · rw [if_pos hboxed, NanBoxed.newFloat64]
    by_cases hnan : Double.isNaN bits = true
    · rw [if_pos (of_decide_eq_true hnan), if_pos ⟨hboxed, hnan⟩]
      decide
    · rw [if_neg (fun h => hnan (decide_eq_true h)), if_neg (fun h => hnan h.2), getInt_sub_addend]
  · rw [if_neg hboxed, if_neg (fun h => hboxed h.1)]
    rfl

theorem isZero_iff (bits : BitVec 64) : Double.isZero bits = true ↔ bits.toNat % 2 ^ 63 = 0 := by
  rw [Double.isZero, decide_eq_true_iff, ← BitVec.toNat_inj,
    Double.toNat_and_mask _ 63 _ (by decide)]
  rfl

/-- The pattern of a zero has no lower word. -/
theorem setWidth_of_isZero {bits : BitVec 64} (hzero : Double.isZero bits = true) :
    bits.setWidth 32 = 0#32 := by
  have hmod := (isZero_iff bits).mp hzero
  apply BitVec.eq_of_toNat_eq
  rw [BitVec.toNat_setWidth, BitVec.toNat_ofNat]
  omega

/-- Reading the payload agrees with the conversion exactly when the lower word tells. -/
theorem boolean_iff {v : JSValue} (hvalue : v.isLanguageValue = true) :
    (Boolean.value cells (Value.toBoolean v) = Value.booleanValue cells v ∧
      (Boolean.value cells (Value.toBoolean v) = true ↔ cells.Truthy v) ∧
      (Value.booleanValue cells v = true ↔ cells.Truthy v)) ↔ cells.LowWordTells v := by
  have htruthy := cells.booleanValue_iff hvalue
  have hreduce : (Boolean.value cells (Value.toBoolean v) = Value.booleanValue cells v ∧
      (Boolean.value cells (Value.toBoolean v) = true ↔ cells.Truthy v) ∧
      (Value.booleanValue cells v = true ↔ cells.Truthy v)) ↔
      (cells.payload v ≠ 0 ↔ cells.Truthy v) := by
    rw [Bool.eq_iff_iff, htruthy, Boolean.value, decide_eq_true_iff, Value.toBoolean]
    tauto
  rw [hreduce]
  cases v with
  | ref tag ptr => exact Iff.rfl
  | float64 bits =>
      rw [payload_float64, Truthy, LowWordTells]
      by_cases hnan : Double.isNaN bits = true
      · by_cases hboxed : cells.nanBoxing = true <;> simp [hnan, hboxed]
      · by_cases hzero : Double.isZero bits = true
        · simp [hnan, hzero, setWidth_of_isZero hzero]
        · simp [hnan, hzero]
  | int value => simp [payload, Truthy, LowWordTells]
  | bool value => cases value <;> simp [payload, Truthy, LowWordTells]
  | null => simp [payload, Truthy, LowWordTells]
  | undefined => simp [payload, Truthy, LowWordTells]
  | _ => cases hvalue

/-- The cells of a boxed layout, with an empty string at an address. -/
def emptyStringCells : Cells := ⟨true, fun _ => 0x1000, fun _ => 0, fun _ => false, fun _ => false⟩

theorem boolean_emptyString : JSValue.isLanguageValue (.ref .string 7) = true ∧
    ((Boolean.value emptyStringCells (Value.toBoolean (.ref .string 7)) =
        Value.booleanValue emptyStringCells (.ref .string 7) ∧
      (Boolean.value emptyStringCells (Value.toBoolean (.ref .string 7)) = true ↔
        emptyStringCells.Truthy (.ref .string 7)) ∧
      (Value.booleanValue emptyStringCells (.ref .string 7) = true ↔
        emptyStringCells.Truthy (.ref .string 7))) ↔
      emptyStringCells.LowWordTells (.ref .string 7)) :=
  ⟨rfl, boolean_iff emptyStringCells rfl⟩

/-- One and a half reads as false: its lower word is zero. -/
theorem fraction_reads_false :
    JSValue.isLanguageValue (.float64 0x3ff8000000000000) = true ∧
      Boolean.value ⟨false, fun _ => 0, fun _ => 0, fun _ => false, fun _ => false⟩
          (Value.toBoolean (.float64 0x3ff8000000000000)) = false ∧
      Value.booleanValue ⟨false, fun _ => 0, fun _ => 0, fun _ => false, fun _ => false⟩
          (.float64 0x3ff8000000000000) = true := by
  decide

end Cells

end QuickjsBackend
