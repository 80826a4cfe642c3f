import QuickjsBackend.Foundation.Double

/-! # The two layouts of engine values

With 32-bit pointers a value is one 64-bit word that holds the tag in its upper
half, or a double minus an addend that moves all doubles above the largest tag.
With 64-bit pointers it is a record of a union and a tag. What the library relies
on in either case comes with the layout.
-/

namespace QuickjsBackend

open Foundation

namespace Tag

def bigInt : BitVec 32 := -10
def symbol : BitVec 32 := -8
def string : BitVec 32 := -7
def object : BitVec 32 := -1
def int : BitVec 32 := 0
def bool : BitVec 32 := 1
def null : BitVec 32 := 2
def undefined : BitVec 32 := 3
def float64 : BitVec 32 := 7

/-- `JS_TAG_FIRST`. -/
def first : BitVec 32 := -11

/-- `JS_TAG_EXTERNAL`, the tag the library adds. -/
def external : BitVec 32 := float64 + 1

/-- The tags of values that handles can denote, that of doubles left out. -/
def engine : List (BitVec 32) := [bigInt, symbol, string, object, int, bool, null, undefined]

end Tag

/-- A layout of `JSValue`, with the macros over it. `padding` and `old` are what an
initialization leaves of the memory of a value. -/
structure Layout where
  Value : Type
  ptrBits : Nat
  getTag : Value → BitVec 32
  getNormTag : Value → BitVec 32
  getInt : Value → BitVec 32
  getFloat64 : Value → BitVec 64
  getPtr : Value → BitVec ptrBits
  tagIsFloat64 : BitVec 32 → Bool
  mkVal (padding tag val : BitVec 32) : Value
  mkPtr (tag : BitVec 32) (ptr : BitVec ptrBits) : Value
  initVal (old : Value) (tag val : BitVec 32) : Value
  initPtr (old : Value) (tag : BitVec 32) (ptr : BitVec ptrBits) : Value
  newFloat64 (d : BitVec 64) : Value
  getTag_mkVal : ∀ padding tag val, getTag (mkVal padding tag val) = tag
  getInt_mkVal : ∀ padding tag val, getInt (mkVal padding tag val) = val
  getTag_mkPtr : ∀ tag ptr, getTag (mkPtr tag ptr) = tag
  getTag_initVal : ∀ old tag val, getTag (initVal old tag val) = tag
  getInt_initVal : ∀ old tag val, getInt (initVal old tag val) = val
  getTag_initPtr : ∀ old tag ptr, getTag (initPtr old tag ptr) = tag
  getPtr_initPtr : ∀ old tag ptr, getPtr (initPtr old tag ptr) = ptr
  getFloat64_newFloat64 : ∀ d, Double.Same (getFloat64 (newFloat64 d)) d
  getNormTag_eq : ∀ v, getNormTag v =
    if tagIsFloat64 (getTag v) then Tag.float64 else getTag v
  tagIsFloat64_newFloat64 : ∀ d, tagIsFloat64 (getTag (newFloat64 d)) = true
  newFloat64_ne_external : ∀ d, getTag (newFloat64 d) ≠ Tag.external
  tagIsFloat64_engine : ∀ tag ∈ Tag.engine, tagIsFloat64 tag = false

namespace NanBoxed

def getTag (v : BitVec 64) : BitVec 32 := (v >>> 32).setWidth 32

def getInt (v : BitVec 64) : BitVec 32 := v.setWidth 32

def getPtr (v : BitVec 64) : BitVec 32 := v.setWidth 32

def mkVal (tag val : BitVec 32) : BitVec 64 := tag.signExtend 64 <<< 32 ||| val.setWidth 64

def mkPtr (tag ptr : BitVec 32) : BitVec 64 := tag.signExtend 64 <<< 32 ||| ptr.setWidth 64

/-- `JS_FLOAT64_TAG_ADDEND`. -/
def tagAddend : BitVec 32 := 0x7ff80000 - Tag.first + 1

def addend : BitVec 64 := tagAddend.signExtend 64 <<< 32

def getFloat64 (v : BitVec 64) : BitVec 64 := v + addend

def nan : BitVec 64 := 0x7ff8000000000000 - addend

def newFloat64 (d : BitVec 64) : BitVec 64 :=
  if 0x7ff0000000000000#64 < d &&& 0x7fffffffffffffff#64 then nan else d - addend

def tagIsFloat64 (tag : BitVec 32) : Bool := Tag.float64 - Tag.first ≤ tag - Tag.first

def getNormTag (v : BitVec 64) : BitVec 32 :=
  if tagIsFloat64 (getTag v) then Tag.float64 else getTag v

variable (tag val : BitVec 32) (d v : BitVec 64)

theorem getTag_mkVal : getTag (mkVal tag val) = tag := by
  ext i hi
  have hupper : 32 + i < 64 := by omega
  have hwide : i < 64 := by omega
  simp [getTag, mkVal, BitVec.getElem_signExtend, hi, hupper, hwide]

theorem getInt_mkVal : getInt (mkVal tag val) = val := by
  ext i hi
  simp [getInt, mkVal]

theorem toNat_getTag : (getTag v).toNat = v.toNat / 2 ^ 32 := by
  rw [getTag, BitVec.toNat_setWidth, BitVec.toNat_ushiftRight, Nat.shiftRight_eq_div_pow]
  omega

theorem addend_eq : addend = 0x7ff8000c00000000#64 := by decide

/-- Boxed doubles have tags above the external one, as unsigned distances from the
first tag. -/
theorem external_lt_newFloat64 :
    (Tag.external - Tag.first).toNat < (getTag (newFloat64 d) - Tag.first).toNat := by
  have hexternal : (Tag.external - Tag.first).toNat = 19 := by decide
  have hfirst : Tag.first.toNat = 2 ^ 32 - 11 := by decide
  rw [hexternal, BitVec.toNat_sub, toNat_getTag, hfirst]
  unfold newFloat64
  split
  · decide
  next hnumber =>
    have hbound := mt (Double.isNaN_iff d).mpr (by simpa [Double.isNaN] using hnumber)
    rw [addend_eq, BitVec.toNat_sub]
    have hd := d.isLt
    simp only [BitVec.toNat_ofNat]
    omega

theorem tagIsFloat64_newFloat64 : tagIsFloat64 (getTag (newFloat64 d)) = true := by
  have hlt := external_lt_newFloat64 d
  have hle : (Tag.float64 - Tag.first).toNat ≤ (Tag.external - Tag.first).toNat := by decide
  rw [tagIsFloat64, decide_eq_true_iff, BitVec.le_def]
  omega

theorem newFloat64_ne_external : getTag (newFloat64 d) ≠ Tag.external := by
  intro heq
  have hlt := external_lt_newFloat64 d
  rw [heq] at hlt
  exact absurd hlt (lt_irrefl _)

theorem getFloat64_newFloat64 : Double.Same (getFloat64 (newFloat64 d)) d := by
  unfold newFloat64
  split
  next hnan => exact Or.inr ⟨by decide, by simpa [Double.isNaN] using hnan⟩
  next => exact Or.inl (BitVec.sub_add_cancel _ _)

end NanBoxed

namespace Layout

def nanBoxed : Layout where
  Value := BitVec 64
  ptrBits := 32
  getTag := NanBoxed.getTag
  getNormTag := NanBoxed.getNormTag
  getInt := NanBoxed.getInt
  getFloat64 := NanBoxed.getFloat64
  getPtr := NanBoxed.getPtr
  tagIsFloat64 := NanBoxed.tagIsFloat64
  mkVal _ := NanBoxed.mkVal
  mkPtr := NanBoxed.mkPtr
  initVal _ := NanBoxed.mkVal
  initPtr _ := NanBoxed.mkPtr
  newFloat64 := NanBoxed.newFloat64
  getTag_mkVal _ := NanBoxed.getTag_mkVal
  getInt_mkVal _ := NanBoxed.getInt_mkVal
  getTag_mkPtr := NanBoxed.getTag_mkVal
  getTag_initVal _ := NanBoxed.getTag_mkVal
  getInt_initVal _ := NanBoxed.getInt_mkVal
  getTag_initPtr _ := NanBoxed.getTag_mkVal
  getPtr_initPtr _ := NanBoxed.getInt_mkVal
  getFloat64_newFloat64 := NanBoxed.getFloat64_newFloat64
  getNormTag_eq _ := rfl
  tagIsFloat64_newFloat64 := NanBoxed.tagIsFloat64_newFloat64
  newFloat64_ne_external := NanBoxed.newFloat64_ne_external
  tagIsFloat64_engine := by
    simp only [Tag.engine, List.forall_mem_cons, List.not_mem_nil, IsEmpty.forall_iff,
      implies_true, and_true]
    decide

end Layout

/-- `JSValueUnion` as the memory it takes, and the tag. -/
structure TaggedValue where
  u : BitVec 64
  tag : BitVec 64
  deriving DecidableEq, Repr

namespace TaggedValue

def getTag (v : TaggedValue) : BitVec 32 := v.tag.setWidth 32

def getInt (v : TaggedValue) : BitVec 32 := v.u.setWidth 32

def getFloat64 (v : TaggedValue) : BitVec 64 := v.u

def getPtr (v : TaggedValue) : BitVec 64 := v.u

def tagIsFloat64 (tag : BitVec 32) : Bool := tag = Tag.float64

/-- The member `int32` is the lower half of the union. -/
def mkVal (padding tag val : BitVec 32) : TaggedValue :=
  { u := padding ++ val, tag := tag.signExtend 64 }

def mkPtr (tag : BitVec 32) (ptr : BitVec 64) : TaggedValue :=
  { u := ptr, tag := tag.signExtend 64 }

def initVal (old : TaggedValue) (tag val : BitVec 32) : TaggedValue :=
  { u := old.u.extractLsb' 32 32 ++ val, tag := tag.signExtend 64 }

def initPtr (_ : TaggedValue) (tag : BitVec 32) (ptr : BitVec 64) : TaggedValue :=
  { u := ptr, tag := tag.signExtend 64 }

def newFloat64 (d : BitVec 64) : TaggedValue := { u := d, tag := Tag.float64.signExtend 64 }

theorem setWidth_signExtend (tag : BitVec 32) : (tag.signExtend 64).setWidth 32 = tag := by
  ext i hi
  simp [BitVec.getLsbD_signExtend, hi]
  omega

theorem setWidth_append (high low : BitVec 32) : (high ++ low).setWidth 32 = low := by
  ext i hi
  rw [BitVec.getElem_setWidth, BitVec.getLsbD_append]
  simp [hi]

theorem tagIsFloat64_newFloat64 (d : BitVec 64) : tagIsFloat64 (getTag (newFloat64 d)) = true := by
  simp only [getTag, newFloat64, setWidth_signExtend]
  decide

theorem newFloat64_ne_external (d : BitVec 64) : getTag (newFloat64 d) ≠ Tag.external := by
  simp only [getTag, newFloat64, setWidth_signExtend]
  decide

end TaggedValue

def Layout.tagged : Layout where
  Value := TaggedValue
  ptrBits := 64
  getTag := TaggedValue.getTag
  getNormTag := TaggedValue.getTag
  getInt := TaggedValue.getInt
  getFloat64 := TaggedValue.getFloat64
  getPtr := TaggedValue.getPtr
  tagIsFloat64 := TaggedValue.tagIsFloat64
  mkVal := TaggedValue.mkVal
  mkPtr := TaggedValue.mkPtr
  initVal := TaggedValue.initVal
  initPtr := TaggedValue.initPtr
  newFloat64 := TaggedValue.newFloat64
  getTag_mkVal _ tag _ := TaggedValue.setWidth_signExtend tag
  getInt_mkVal padding _ val := TaggedValue.setWidth_append padding val
  getTag_mkPtr tag _ := TaggedValue.setWidth_signExtend tag
  getTag_initVal _ tag _ := TaggedValue.setWidth_signExtend tag
  getInt_initVal _ _ val := TaggedValue.setWidth_append _ val
  getTag_initPtr _ tag _ := TaggedValue.setWidth_signExtend tag
  getPtr_initPtr _ _ _ := rfl
  getFloat64_newFloat64 _ := Or.inl rfl
  getNormTag_eq v := by
    simp only [TaggedValue.tagIsFloat64, decide_eq_true_eq]
    split
    next heq => exact heq
    next => rfl
  tagIsFloat64_newFloat64 := TaggedValue.tagIsFloat64_newFloat64
  newFloat64_ne_external := TaggedValue.newFloat64_ne_external
  tagIsFloat64_engine := by
    simp only [Tag.engine, List.forall_mem_cons, List.not_mem_nil, IsEmpty.forall_iff,
      implies_true, and_true]
    decide

/-- Whether the external tag counts as that of a double. -/
theorem nanBoxed_external : Layout.nanBoxed.tagIsFloat64 Tag.external = true := by decide

theorem tagged_external : Layout.tagged.tagIsFloat64 Tag.external = false := by decide

end QuickjsBackend
