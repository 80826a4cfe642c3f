import QuickjsBackend.Engine.Layout

/-! # Primitive values and their kinds

`New` of externals, numbers, integers and booleans writes a value into a slot,
`Value()` reads it back, and the predicates of `Value` look at the tag. All of it
is the same code over either layout.
-/

namespace QuickjsBackend

open Foundation

/-- What the code leaves to the compiler and the engine: conversions of doubles that
are out of range of the integer type, and of values that are no numbers. -/
structure Target (layout : Layout) where
  int32 : BitVec 64 → BitVec 32
  int64 : BitVec 64 → BitVec 64
  toFloat64 : layout.Value → BitVec 64
  toInt64 : layout.Value → BitVec 64

namespace Target

variable {layout : Layout} (target : Target layout)

/-- `(int32_t)d`. -/
def castInt32 (d : BitVec 64) : BitVec 32 :=
  if -2 ^ 31 ≤ Double.truncate d ∧ Double.truncate d < 2 ^ 31 then
    BitVec.ofInt 32 (Double.truncate d)
  else target.int32 d

/-- `(int64_t)d`. -/
def castInt64 (d : BitVec 64) : BitVec 64 :=
  if -2 ^ 63 ≤ Double.truncate d ∧ Double.truncate d < 2 ^ 63 then
    BitVec.ofInt 64 (Double.truncate d)
  else target.int64 d

/-- `JS_ToFloat64Free`. -/
def jsToFloat64 (v : layout.Value) : BitVec 64 :=
  let tag := layout.getTag v
  if tag ≤ Tag.null then Double.ofInt (layout.getInt v).toInt
  else if layout.tagIsFloat64 tag then layout.getFloat64 v
  else target.toFloat64 v

/-- `JS_ToInt64Free`. -/
def jsToInt64 (v : layout.Value) : BitVec 64 :=
  let tag := layout.getNormTag v
  if tag = Tag.int ∨ tag = Tag.bool ∨ tag = Tag.null ∨ tag = Tag.undefined then
    (layout.getInt v).signExtend 64
  else if tag = Tag.float64 then
    let d := layout.getFloat64 v
    let e := Double.exponent d
    if e ≤ 1023 + 62 then target.castInt64 d
    else if e ≤ 1023 + 62 + 53 then
      let ret := BitVec.ofNat 64 (Double.fraction d + 2 ^ 52) <<< (e - 1023 - 52)
      if Double.negative d then -ret else ret
    else 0
  else target.toInt64 v

/-- `JS_NewFloat64`. -/
def jsNewFloat64 (padding : BitVec 32) (d : BitVec 64) : layout.Value :=
  let val := target.castInt32 d
  if d = Double.ofInt val.toInt then layout.mkVal padding Tag.int val else layout.newFloat64 d

end Target

namespace Layout

variable (layout : Layout)

/-- `JS_NewUint32`. -/
def jsNewUint32 (padding val : BitVec 32) : layout.Value :=
  if val ≤ 0x7fffffff then layout.mkVal padding Tag.int val
  else layout.newFloat64 (Double.ofInt val.toNat)

/-- `JS_IsNumber`. -/
def jsIsNumber (v : layout.Value) : Bool :=
  layout.getTag v = Tag.int || layout.tagIsFloat64 (layout.getTag v)

end Layout

/-- The kinds of values that predicates of `Value` tell apart. -/
inductive Kind
  | external
  | number
  | boolean
  | undefined
  | null
  | string
  | symbol
  | bigInt
  | object
  deriving DecidableEq, Repr

/-- The tag of the values of a kind; numbers have that of doubles besides. -/
def Kind.tag : Kind → BitVec 32
  | .external => Tag.external
  | .number => Tag.int
  | .boolean => Tag.bool
  | .undefined => Tag.undefined
  | .null => Tag.null
  | .string => Tag.string
  | .symbol => Tag.symbol
  | .bigInt => Tag.bigInt
  | .object => Tag.object

theorem Kind.tag_injective : Function.Injective Kind.tag := by
  intro left right heq
  cases left <;> cases right <;> first | rfl | exact absurd heq (by decide)

theorem Kind.tag_mem_engine {kind : Kind} (hkind : kind ≠ .external) : kind.tag ∈ Tag.engine := by
  cases kind with
  | external => exact absurd rfl hkind
  | _ => simp [Kind.tag, Tag.engine]

namespace Value

variable (layout : Layout) (v : layout.Value)

def isExternal : Bool := layout.getTag v = Tag.external

def isNumber : Bool := layout.jsIsNumber v

def isBoolean : Bool := layout.getTag v = Tag.bool

def isUndefined : Bool := layout.getTag v = Tag.undefined

def isNull : Bool := layout.getTag v = Tag.null

def isString : Bool := layout.getTag v = Tag.string

def isSymbol : Bool := layout.getTag v = Tag.symbol

def isBigInt : Bool := layout.getTag v = Tag.bigInt

def isObject : Bool := layout.getTag v = Tag.object

def is : Kind → Bool
  | .external => isExternal layout v
  | .number => isNumber layout v
  | .boolean => isBoolean layout v
  | .undefined => isUndefined layout v
  | .null => isNull layout v
  | .string => isString layout v
  | .symbol => isSymbol layout v
  | .bigInt => isBigInt layout v
  | .object => isObject layout v

end Value

/-- A value that comes into being: through `New` in a slot, or in the engine. -/
inductive Creation (layout : Layout)
  | external (ptr : BitVec layout.ptrBits)
  | integer (value : BitVec 32)
  | unsigned (value : BitVec 32)
  | boolean (value : Bool)
  | number (d : BitVec 64)
  | engineInt (value : BitVec 32)
  | engineFloat64 (d : BitVec 64)
  | engineBool (value : Bool)
  | undefined
  | null
  | string (ptr : BitVec layout.ptrBits)
  | symbol (ptr : BitVec layout.ptrBits)
  | bigInt (ptr : BitVec layout.ptrBits)
  | object (ptr : BitVec layout.ptrBits)

namespace Creation

variable {layout : Layout} (target : Target layout) (slot : layout.Value) (padding : BitVec 32)

/-- The value, where `slot` is what the slot held before. -/
def value : Creation layout → layout.Value
  | .external ptr => layout.initPtr slot Tag.external ptr
  | .integer value => layout.initVal slot Tag.int value
  | .unsigned value => layout.jsNewUint32 padding value
  | .boolean value => layout.initVal slot Tag.bool (if value then 1 else 0)
  | .number d => target.jsNewFloat64 padding d
  | .engineInt value => layout.mkVal padding Tag.int value
  | .engineFloat64 d => layout.newFloat64 d
  | .engineBool value => layout.mkVal padding Tag.bool (if value then 1 else 0)
  | .undefined => layout.mkVal padding Tag.undefined 0
  | .null => layout.mkVal padding Tag.null 0
  | .string ptr => layout.mkPtr Tag.string ptr
  | .symbol ptr => layout.mkPtr Tag.symbol ptr
  | .bigInt ptr => layout.mkPtr Tag.bigInt ptr
  | .object ptr => layout.mkPtr Tag.object ptr

def kind : Creation layout → Kind
  | .external _ => .external
  | .integer _ | .unsigned _ | .number _ | .engineInt _ | .engineFloat64 _ => .number
  | .boolean _ | .engineBool _ => .boolean
  | .undefined => .undefined
  | .null => .null
  | .string _ => .string
  | .symbol _ => .symbol
  | .bigInt _ => .bigInt
  | .object _ => .object

end Creation

/-- `External::Value`. -/
def Layout.externalValue (layout : Layout) (v : layout.Value) :
    BitVec layout.ptrBits := layout.getPtr v

/-- `Number::Value`. -/
def Layout.numberValue {layout : Layout} (target : Target layout) (v : layout.Value) : BitVec 64 :=
  target.jsToFloat64 v

/-- `Integer::Value`. -/
def Layout.integerValue {layout : Layout} (target : Target layout) (v : layout.Value) : BitVec 64 :=
  if layout.getTag v = Tag.int then (layout.getInt v).signExtend 64
  else if layout.getTag v = Tag.float64 then target.castInt64 (layout.getFloat64 v)
  else target.jsToInt64 v

/-- `Boolean::Value`. -/
def Layout.booleanValue (layout : Layout) (v : layout.Value) : Bool := layout.getInt v ≠ 0

namespace Creation

variable {layout : Layout} (target : Target layout) (slot : layout.Value) (padding : BitVec 32)

/-- `Value()` gives back what `New` was given. -/
def RoundTrips (creation : Creation layout) : Prop :=
  match creation with
  | .external ptr => Layout.externalValue layout (creation.value target slot padding) = ptr
  | .integer value =>
      Layout.integerValue target (creation.value target slot padding) = value.signExtend 64
  | .unsigned value => Layout.integerValue target (creation.value target slot padding) =
      value.setWidth 64
  | .boolean value => Layout.booleanValue layout (creation.value target slot padding) = value
  | .number d => Double.Same (Layout.numberValue target (creation.value target slot padding)) d
  | _ => True

/-- Exactly the predicate of its kind holds of the value. -/
def Classified (creation : Creation layout) : Prop :=
  ∀ kind, Value.is layout (creation.value target slot padding) kind = true ↔ kind = creation.kind

end Creation

section Numbers

variable {layout : Layout} (target : Target layout) {v : layout.Value}

/-- The tag of a double is none of the others. -/
theorem Layout.ne_of_tagIsFloat64 {tag : BitVec 32}
    (hfloat : layout.tagIsFloat64 (layout.getTag v) = true) (htag : tag ∈ Tag.engine) :
    layout.getTag v ≠ tag := by
  intro heq
  rw [heq, layout.tagIsFloat64_engine tag htag] at hfloat
  cases hfloat

theorem Layout.numberValue_of_int (htag : layout.getTag v = Tag.int) :
    Layout.numberValue target v = Double.ofInt (layout.getInt v).toInt := by
  have hle : Tag.int ≤ Tag.null := by decide
  simp only [Layout.numberValue, Target.jsToFloat64, htag, hle, if_true]

theorem Layout.numberValue_of_float64 (hfloat : layout.tagIsFloat64 (layout.getTag v) = true) :
    Layout.numberValue target v = layout.getFloat64 v := by
  have hint := layout.ne_of_tagIsFloat64 hfloat (show Tag.int ∈ Tag.engine by simp [Tag.engine])
  have hbool := layout.ne_of_tagIsFloat64 hfloat (show Tag.bool ∈ Tag.engine by simp [Tag.engine])
  have hnull := layout.ne_of_tagIsFloat64 hfloat (show Tag.null ∈ Tag.engine by simp [Tag.engine])
  have hlarge : ¬ layout.getTag v ≤ Tag.null := by
    intro hle
    have hlast : Tag.null.toNat = 2 := by decide
    rw [BitVec.le_def, hlast] at hle
    rw [ne_eq, ← BitVec.toNat_inj, show Tag.int.toNat = 0 by decide] at hint
    rw [ne_eq, ← BitVec.toNat_inj, show Tag.bool.toNat = 1 by decide] at hbool
    rw [ne_eq, ← BitVec.toNat_inj, hlast] at hnull
    omega
  simp only [Layout.numberValue, Target.jsToFloat64, hlarge, hfloat, if_false, if_true]

theorem Layout.integerValue_of_int (htag : layout.getTag v = Tag.int) :
    Layout.integerValue target v = (layout.getInt v).signExtend 64 := by
  simp only [Layout.integerValue, htag, if_true]

/-- With the tag of a double itself the cast is made in place, with any other tag
that counts as one in `JS_ToInt64`. -/
theorem Layout.integerValue_of_float64 (hfloat : layout.tagIsFloat64 (layout.getTag v) = true)
    (hexp : Double.exponent (layout.getFloat64 v) ≤ 1023 + 62) :
    Layout.integerValue target v = target.castInt64 (layout.getFloat64 v) := by
  have hint := layout.ne_of_tagIsFloat64 hfloat (show Tag.int ∈ Tag.engine by simp [Tag.engine])
  have hto : target.jsToInt64 v = target.castInt64 (layout.getFloat64 v) := by
    have hother : ¬ (Tag.float64 = Tag.int ∨ Tag.float64 = Tag.bool ∨ Tag.float64 = Tag.null ∨
        Tag.float64 = Tag.undefined) := by decide
    simp only [Target.jsToInt64, layout.getNormTag_eq, hfloat, if_true, hexp, hother, if_false]
  simp only [Layout.integerValue, hint, if_false, hto, ite_self]

theorem Target.castInt64_ofInt {value : Int} (hlt : value.natAbs < 2 ^ 53) :
    target.castInt64 (Double.ofInt value) = BitVec.ofInt 64 value := by
  rw [Target.castInt64, Double.truncate_ofInt hlt, if_pos (by omega)]

/-- A number that `JS_NewFloat64` stores as an integer has the pattern of it. -/
theorem Layout.numberValue_jsNewFloat64 (padding : BitVec 32) (d : BitVec 64) :
    Double.Same (Layout.numberValue target (target.jsNewFloat64 padding d)) d := by
  simp only [Target.jsNewFloat64]
  split
  next heq =>
    left
    rw [Layout.numberValue_of_int target (layout.getTag_mkVal _ _ _), layout.getInt_mkVal]
    exact heq.symm
  next =>
    rw [Layout.numberValue_of_float64 target (layout.tagIsFloat64_newFloat64 d)]
    exact layout.getFloat64_newFloat64 d

theorem Layout.integerValue_jsNewUint32 (padding value : BitVec 32) :
    Layout.integerValue target (layout.jsNewUint32 padding value) = value.setWidth 64 := by
  have hvalue := value.isLt
  unfold Layout.jsNewUint32
  split
  next hle =>
    rw [Layout.integerValue_of_int target (layout.getTag_mkVal _ _ _), layout.getInt_mkVal]
    apply BitVec.signExtend_eq_setWidth_of_msb_false
    rw [BitVec.le_def, show (0x7fffffff : BitVec 32).toNat = 0x7fffffff by decide] at hle
    rw [BitVec.msb_eq_false_iff_two_mul_lt]
    omega
  next =>
    have hlt : (value.toNat : Int).natAbs < 2 ^ 53 := by omega
    have hsame := Double.eq_of_same_ofInt _ hlt
      (layout.getFloat64_newFloat64 (Double.ofInt value.toNat))
    have hexp := Double.exponent_ofInt_le hlt
    rw [Layout.integerValue_of_float64 target (layout.tagIsFloat64_newFloat64 _)
      (by rw [hsame]; omega),
      hsame, target.castInt64_ofInt hlt, BitVec.ofInt_natCast, BitVec.ofNat_toNat]

theorem Layout.booleanValue_of_bool (value : Bool)
    (hint : layout.getInt v = if value then 1 else 0) : Layout.booleanValue layout v = value := by
  rw [Layout.booleanValue, hint]
  cases value <;> decide

namespace Creation

variable (slot : layout.Value) (padding : BitVec 32)

theorem roundTrips (creation : Creation layout) : creation.RoundTrips target slot padding := by
  cases creation with
  | external ptr => exact layout.getPtr_initPtr slot Tag.external ptr
  | integer value =>
      rw [RoundTrips, Creation.value, Layout.integerValue_of_int target
        (layout.getTag_initVal _ _ _),
        layout.getInt_initVal]
  | unsigned value => exact Layout.integerValue_jsNewUint32 target padding value
  | boolean value => exact Layout.booleanValue_of_bool value (layout.getInt_initVal slot Tag.bool _)
  | number d => exact Layout.numberValue_jsNewFloat64 target padding d
  | _ => trivial

/-- Where a tag is not that of a double, one predicate looks for it. -/
theorem is_iff_of_tag {v : layout.Value} (hfloat : layout.tagIsFloat64 (layout.getTag v) = false)
    (kind : Kind) : Value.is layout v kind = true ↔ layout.getTag v = kind.tag := by
  cases kind with
  | number =>
      simp only [Value.is, Value.isNumber, Layout.jsIsNumber, hfloat, Bool.or_false,
        decide_eq_true_eq, Kind.tag]
  | _ =>
      simp only [Value.is, Value.isExternal, Value.isBoolean, Value.isUndefined, Value.isNull,
        Value.isString, Value.isSymbol, Value.isBigInt, Value.isObject, decide_eq_true_eq, Kind.tag]

theorem is_iff_of_kind {v : layout.Value} {kind : Kind} (htag : layout.getTag v = kind.tag)
    (hfloat : layout.tagIsFloat64 kind.tag = false) (other : Kind) :
    Value.is layout v other = true ↔ other = kind := by
  rw [is_iff_of_tag (by rw [htag]; exact hfloat), htag]
  exact ⟨fun heq => Kind.tag_injective heq.symm, fun heq => by rw [heq]⟩

theorem is_iff_of_float64 (d : BitVec 64) (kind : Kind) :
    Value.is layout (layout.newFloat64 d) kind = true ↔ kind = .number := by
  have hfloat := layout.tagIsFloat64_newFloat64 d
  have hother : ∀ tag ∈ Tag.engine, layout.getTag (layout.newFloat64 d) ≠ tag :=
    fun tag htag => layout.ne_of_tagIsFloat64 hfloat htag
  simp only [Tag.engine, List.forall_mem_cons, ne_eq] at hother
  cases kind with
  | number => simp [Value.is, Value.isNumber, Layout.jsIsNumber, hfloat]
  | external => simp [Value.is, Value.isExternal, layout.newFloat64_ne_external d]
  | _ =>
      simp [Value.is, Value.isBoolean, Value.isUndefined, Value.isNull, Value.isString,
        Value.isSymbol, Value.isBigInt, Value.isObject, hother]

/-- Every value but an external has the tag of its kind, or that of a double and is
a number. -/
theorem tag_of_value {creation : Creation layout} (hkind : creation.kind ≠ .external) :
    layout.getTag (creation.value target slot padding) = creation.kind.tag ∨
      (creation.kind = .number ∧
        ∃ d, creation.value target slot padding = layout.newFloat64 d) := by
  cases creation with
  | external ptr => exact absurd rfl hkind
  | integer value => exact Or.inl (layout.getTag_initVal _ _ _)
  | boolean value => exact Or.inl (layout.getTag_initVal _ _ _)
  | unsigned value =>
      simp only [Creation.value, Layout.jsNewUint32]
      split
      next => exact Or.inl (layout.getTag_mkVal _ _ _)
      next => exact Or.inr ⟨rfl, _, rfl⟩
  | number d =>
      simp only [Creation.value, Target.jsNewFloat64]
      split
      next => exact Or.inl (layout.getTag_mkVal _ _ _)
      next => exact Or.inr ⟨rfl, _, rfl⟩
  | engineFloat64 d => exact Or.inr ⟨rfl, d, rfl⟩
  | engineInt value => exact Or.inl (layout.getTag_mkVal _ _ _)
  | engineBool value => exact Or.inl (layout.getTag_mkVal _ _ _)
  | undefined => exact Or.inl (layout.getTag_mkVal _ _ _)
  | null => exact Or.inl (layout.getTag_mkVal _ _ _)
  | string ptr => exact Or.inl (layout.getTag_mkPtr _ _)
  | symbol ptr => exact Or.inl (layout.getTag_mkPtr _ _)
  | bigInt ptr => exact Or.inl (layout.getTag_mkPtr _ _)
  | object ptr => exact Or.inl (layout.getTag_mkPtr _ _)

/-- A value is taken for what it is, unless it is an external and the tag of
externals counts as that of a double. -/
theorem classified_iff (creation : Creation layout) :
    creation.Classified target slot padding ↔
      ¬ (creation.kind = .external ∧ layout.tagIsFloat64 Tag.external = true) := by
  by_cases hkind : creation.kind = .external
  · cases creation with
    | external ptr =>
        have htag : layout.getTag (layout.initPtr slot Tag.external ptr) = Kind.external.tag :=
          layout.getTag_initPtr slot Tag.external ptr
        cases hfloat : layout.tagIsFloat64 Tag.external with
        | false =>
            refine iff_of_true (fun other => is_iff_of_kind htag hfloat other) ?_
            rintro ⟨_, htrue⟩
            cases htrue
        | true =>
            refine iff_of_false (fun hclassified => ?_) (fun hnot => hnot ⟨rfl, rfl⟩)
            have hnumber : Value.is layout (layout.initPtr slot Tag.external ptr) .number = true := by
              simp only [Value.is, Value.isNumber, Layout.jsIsNumber, htag, Kind.tag, hfloat,
                Bool.or_true]
            cases (hclassified .number).mp hnumber
    | _ => cases hkind
  · refine iff_of_true (fun other => ?_) fun hboth => hkind hboth.1
    rcases tag_of_value target slot padding hkind with htag | ⟨hnumber, d, hvalue⟩
    · exact is_iff_of_kind htag (layout.tagIsFloat64_engine _ (Kind.tag_mem_engine hkind)) other
    · rw [hvalue, hnumber]
      exact is_iff_of_float64 d other

/-- `Value()` gives back what went in, and the value is of one kind only. -/
def Faithful (creation : Creation layout) : Prop :=
  creation.RoundTrips target slot padding ∧ creation.Classified target slot padding

end Creation

end Numbers

/-- The layout the header chooses, by whether `JS_PTR64` is defined. -/
def Layout.ofPtr64 (ptr64 : Bool) : Layout := if ptr64 then .tagged else .nanBoxed

/-- In either layout every value is represented faithfully, except for externals
under NaN boxing. -/
theorem Creation.faithful_iff (ptr64 : Bool) (target : Target (Layout.ofPtr64 ptr64))
    (slot : (Layout.ofPtr64 ptr64).Value) (padding : BitVec 32)
    (creation : Creation (Layout.ofPtr64 ptr64)) :
    creation.Faithful target slot padding ↔ ¬ (ptr64 = false ∧ creation.kind = .external) := by
  have hlayout : (Layout.ofPtr64 ptr64).tagIsFloat64 Tag.external = true ↔ ptr64 = false := by
    cases ptr64 with
    | false => exact iff_of_true nanBoxed_external rfl
    | true =>
        refine iff_of_false ?_ (by simp)
        rw [Bool.not_eq_true]
        exact tagged_external
  rw [Creation.Faithful, and_iff_right (creation.roundTrips target slot padding),
    creation.classified_iff target slot padding, hlayout, and_comm]

/-- What 32-bit x86 answers for doubles out of range, and NaN and zero for the rest. -/
def Target.x86 (layout : Layout) : Target layout where
  int32 _ := 0x80000000
  int64 _ := 0x8000000000000000
  toFloat64 _ := 0x7ff8000000000000
  toInt64 _ := 0

/-- With 32-bit pointers an external is taken for a number as well. -/
theorem Creation.external_is_number :
    ¬ Creation.Faithful (Target.x86 (Layout.ofPtr64 false)) 0#64 0#32
      (.external 0x1000#32) := by
  intro hfaithful
  have hnumber := (hfaithful.2 .number).mp (by decide)
  cases hnumber

end QuickjsBackend
