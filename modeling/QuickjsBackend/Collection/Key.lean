import QuickjsBackend.Foundation.Double
import QuickjsBackend.Engine.Layout
import QuickjsBackend.Engine.Value

/-! # Keys of maps

Records are found by a hash of the key and a comparison in the mode of
`js_same_value_zero`. The hash of a number depends on how it is represented, the
comparison does not, and neither knows the external tag of the library.
-/

namespace QuickjsBackend

open Foundation

/-- What lies behind the values that serve as keys: the layout of values, where a cell
lies, the characters of strings, and the big numbers up to their comparison. -/
structure KeyStore where
  nanBoxing : Bool
  address : Ptr → BitVec 64
  string : Ptr → List (BitVec 16)
  big : Ptr → Int

/-- The keys that `SameValueZero` tells apart. -/
inductive KeyClass
  | number (bits : BitVec 64)
  | string (units : List (BitVec 16))
  | big (tag : RefTag) (number : Int)
  | plain (value : JSValue)
  deriving DecidableEq

namespace KeyStore

variable (store : KeyStore)

/-- The key that a value is for `SameValueZero`: numbers by their value with one zero
and one NaN, strings and big numbers by their contents, anything else by identity. -/
def keyClass : JSValue → KeyClass
  | .int value => .number (Double.canonical (Double.ofInt value.toInt))
  | .float64 bits => .number (Double.canonical bits)
  | .ref .string ptr => .string (store.string ptr)
  | .ref .bigInt ptr => .big .bigInt (store.big ptr)
  | .ref .bigFloat ptr => .big .bigFloat (store.big ptr)
  | .ref .bigDecimal ptr => .big .bigDecimal (store.big ptr)
  | value => .plain value

/-- The value as the macros for tags and doubles see it: in the boxed layout an external
has the tag of a double, and a double is read from it. -/
def seen : JSValue → JSValue
  | .external address =>
      if store.nanBoxing then
        .float64 (NanBoxed.getFloat64 (NanBoxed.mkVal Tag.external (BitVec.ofNat 32 address)))
      else .external address
  | value => value

/-- `map_normalize_key`. -/
def mapNormalizeKey (key : JSValue) : JSValue :=
  match store.seen key with
  | .float64 bits => if Double.equal bits 0 then .int 0 else key
  | _ => key

/-- `hash_string`, over 8-bit and 16-bit characters alike. -/
def hashString (units : List (BitVec 16)) (h : BitVec 32) : BitVec 32 :=
  units.foldl (fun h unit => h * 263 + unit.setWidth 32) h

/-- The part of `map_hash_key` at `hash_float64`. -/
def hashFloat64 (bits : BitVec 64) : BitVec 32 :=
  (bits.setWidth 32 ^^^ (bits >>> 32).setWidth 32) * 3163

/-- `map_hash_key`. The product with an integer key is one of 32-bit integers. -/
def mapHashKey (key : JSValue) : BitVec 32 :=
  let key := store.seen key
  let h := match key with
    | .bool value => if value then 1 else 0
    | .ref .string ptr => hashString (store.string ptr) 0
    | .ref .object ptr => (store.address ptr).setWidth 32 * 3163
    | .ref .symbol ptr => (store.address ptr).setWidth 32 * 3163
    | .int value => hashFloat64 (Double.ofInt (value * 3163).toInt)
    | .float64 bits => hashFloat64 (if Double.isNaN bits then Double.nan else bits)
    | _ => 0
  h ^^^ BitVec.ofInt 32 key.tag

/-- `number_test` of `js_strict_eq2`. -/
def numberTest (left right : BitVec 64) : Bool :=
  if Double.isNaN left || Double.isNaN right then Double.isNaN left == Double.isNaN right
  else Double.equal left right

/-- `js_strict_eq2` for two cells with one tag. -/
def sameCell (tag : RefTag) (left right : Ptr) : Bool :=
  match tag with
  | .string => store.string left = store.string right
  | .symbol => left = right
  | .object => left = right
  | .bigInt => store.big left = store.big right
  | .bigFloat => store.big left = store.big right
  | .bigDecimal => store.big left = store.big right
  | .module => false
  | .functionBytecode => false

/-- `js_strict_eq2` in the mode `JS_EQ_SAME_VALUE_ZERO`. -/
def strictEq : JSValue → JSValue → Bool
  | .bool left, .bool right => left = right
  | .null, .null => true
  | .undefined, .undefined => true
  | .ref left leftPtr, .ref right rightPtr => left = right && store.sameCell left leftPtr rightPtr
  | .int left, .int right => numberTest (Double.ofInt left.toInt) (Double.ofInt right.toInt)
  | .int left, .float64 right => numberTest (Double.ofInt left.toInt) right
  | .float64 left, .float64 right => numberTest left right
  | .float64 left, .int right => numberTest left (Double.ofInt right.toInt)
  | _, _ => false

/-- `js_same_value_zero`. -/
def jsSameValueZero (left right : JSValue) : Bool :=
  store.strictEq (store.seen left) (store.seen right)

/-- The bucket of a key in a table of the given size. -/
def bucket (size : Nat) (key : JSValue) : Nat := (store.mapHashKey key).toNat &&& (size - 1)

theorem bucket_lt {size : Nat} (hsize : 0 < size) (key : JSValue) :
    store.bucket size key < size := by
  have hle : store.bucket size key ≤ size - 1 := Nat.and_le_right
  omega

/-- What the walk over a bucket takes for the key. -/
def Recognised (size : Nat) (left right : JSValue) : Prop :=
  store.bucket size left = store.bucket size right ∧ store.jsSameValueZero left right = true

/-- Whether `js_strict_eq2` has a case for the tag. -/
def known : JSValue → Bool
  | .bool _ => true
  | .null => true
  | .undefined => true
  | .ref tag _ => tag ≠ .module && tag ≠ .functionBytecode
  | .int _ => true
  | .float64 _ => true
  | _ => false

def readsNaN (key : JSValue) : Bool :=
  match store.seen key with
  | .float64 bits => Double.isNaN bits
  | _ => false

/-- Two keys that the table keeps together or apart as it should: one key has a tag
that is known and hashes to one bucket, two keys are not both read as NaN. -/
def Coherent (size : Nat) (left right : JSValue) : Prop :=
  (store.keyClass left = store.keyClass right →
    known (store.seen left) = true ∧ store.bucket size left = store.bucket size right) ∧
  (store.keyClass left ≠ store.keyClass right →
    ¬ (store.readsNaN left = true ∧ store.readsNaN right = true))

instance (size : Nat) (left right : JSValue) : Decidable (store.Coherent size left right) :=
  inferInstanceAs (Decidable ((_ → _ ∧ _) ∧ (_ → ¬ (_ ∧ _))))

theorem numberTest_iff (left right : BitVec 64) :
    numberTest left right = true ↔ Double.canonical left = Double.canonical right := by
  rw [Double.canonical_eq_iff, numberTest]
  cases hleft : Double.isNaN left <;> cases hright : Double.isNaN right <;>
    simp [Double.equal, hleft, hright]

theorem isNaN_external (address : BitVec 32) :
    Double.isNaN (NanBoxed.getFloat64 (NanBoxed.mkVal Tag.external address)) = true := by
  have htag := congrArg BitVec.toNat (NanBoxed.getTag_mkVal Tag.external address)
  rw [NanBoxed.toNat_getTag, show Tag.external.toNat = 8 by decide] at htag
  rw [Double.isNaN_iff, NanBoxed.getFloat64, BitVec.toNat_add, NanBoxed.addend_eq,
    BitVec.toNat_ofNat]
  omega

/-- A value that is no boxed external is seen as it is. -/
theorem seen_cases (key : JSValue) :
    store.seen key = key ∨
      ∃ address bits, key = .external address ∧ store.seen key = .float64 bits ∧
        Double.isNaN bits = true := by
  cases key with
  | external address =>
      by_cases hboxed : store.nanBoxing = true
      · exact Or.inr ⟨address, _, rfl, if_pos hboxed, isNaN_external _⟩
      · exact Or.inl (if_neg hboxed)
  | _ => exact Or.inl rfl

/-- Without externals the comparison tells keys apart as `SameValueZero` does. -/
theorem strictEq_iff (left right : JSValue) :
    store.strictEq left right = true ↔
      known left = true ∧ store.keyClass left = store.keyClass right := by
  cases left with
  | ref leftTag leftPtr =>
      cases right with
      | ref rightTag rightPtr =>
          cases leftTag <;> cases rightTag <;> simp [strictEq, sameCell, known, keyClass]
      | _ => cases leftTag <;> simp [strictEq, known, keyClass]
  | int left =>
      cases right with
      | ref tag ptr => cases tag <;> simp [strictEq, known, keyClass]
      | int right => simp [strictEq, known, keyClass, numberTest_iff]
      | float64 right => simp [strictEq, known, keyClass, numberTest_iff]
      | _ => simp [strictEq, known, keyClass]
  | float64 left =>
      cases right with
      | ref tag ptr => cases tag <;> simp [strictEq, known, keyClass]
      | int right => simp [strictEq, known, keyClass, numberTest_iff]
      | float64 right => simp [strictEq, known, keyClass, numberTest_iff]
      | _ => simp [strictEq, known, keyClass]
  | _ =>
      cases right with
      | ref tag ptr => cases tag <;> simp [strictEq, known, keyClass]
      | _ => simp [strictEq, known, keyClass]

theorem keyClass_eq_external {address : Nat} {key : JSValue}
    (hclass : store.keyClass key = .plain (.external address)) : key = .external address := by
  cases key with
  | ref tag ptr => cases tag <;> simp [keyClass] at hclass
  | external other => simpa [keyClass] using hclass
  | _ => simp [keyClass] at hclass

theorem readsNaN_iff (key : JSValue) :
    store.readsNaN key = true ↔ store.keyClass (store.seen key) = .number Double.nan := by
  unfold readsNaN
  generalize store.seen key = seen
  cases seen with
  | ref tag ptr => cases tag <;> simp [keyClass]
  | int value =>
      have hnumber : Double.isNaN (Double.ofInt value.toInt) = false :=
        Double.not_isNaN_ofInt (by have hlt := value.toInt_lt; have hle := value.le_toInt; omega)
      simp [keyClass, Double.canonical_eq_nan_iff, hnumber]
  | float64 bits => simp [keyClass, Double.canonical_eq_nan_iff]
  | _ => simp [keyClass]

/-- Looking at a value as the macros do only takes boxed externals for NaN. -/
theorem keyClass_seen_iff (left right : JSValue) :
    store.keyClass (store.seen left) = store.keyClass (store.seen right) ↔
      store.keyClass left = store.keyClass right ∨
        store.readsNaN left = true ∧ store.readsNaN right = true := by
  rw [readsNaN_iff, readsNaN_iff]
  constructor
  · intro hseen
    rcases store.seen_cases left with hleft | ⟨_, bits, _, hleft, hnan⟩
    · rcases store.seen_cases right with hright | ⟨_, bits, _, hright, hnan⟩
      · exact Or.inl (by rwa [hleft, hright] at hseen)
      · have hclass : store.keyClass (store.seen right) = .number Double.nan := by
          rw [hright, keyClass, (Double.canonical_eq_nan_iff bits).mpr hnan]
        exact Or.inr ⟨hseen.trans hclass, hclass⟩
    · have hclass : store.keyClass (store.seen left) = .number Double.nan := by
        rw [hleft, keyClass, (Double.canonical_eq_nan_iff bits).mpr hnan]
      exact Or.inr ⟨hclass, hseen.symm.trans hclass⟩
  · rintro (hclass | ⟨hleft, hright⟩)
    · rcases store.seen_cases left with hleft | ⟨_, _, rfl, _, _⟩
      · rcases store.seen_cases right with hright | ⟨_, _, rfl, _, _⟩
        · rw [hleft, hright, hclass]
        · rw [store.keyClass_eq_external hclass]
      · rw [store.keyClass_eq_external hclass.symm]
    · rw [hleft, hright]

theorem jsSameValueZero_iff (left right : JSValue) :
    store.jsSameValueZero left right = true ↔ known (store.seen left) = true ∧
      (store.keyClass left = store.keyClass right ∨
        store.readsNaN left = true ∧ store.readsNaN right = true) := by
  rw [jsSameValueZero, strictEq_iff, keyClass_seen_iff]

/-- All that is read as NaN lies in one bucket. -/
theorem bucket_of_readsNaN (size : Nat) {left right : JSValue}
    (hleft : store.readsNaN left = true) (hright : store.readsNaN right = true) :
    store.bucket size left = store.bucket size right := by
  have hhash : ∀ key, store.readsNaN key = true →
      store.mapHashKey key = hashFloat64 Double.nan ^^^ BitVec.ofInt 32 JSValue.tagFloat64 := by
    intro key hnan
    unfold readsNaN at hnan
    split at hnan
    next bits hseen => simp only [mapHashKey, hseen, hnan, if_true, JSValue.tag]
    next => cases hnan
  rw [bucket, bucket, hhash left hleft, hhash right hright]

theorem known_of_readsNaN {key : JSValue} (hnan : store.readsNaN key = true) :
    known (store.seen key) = true := by
  unfold readsNaN at hnan
  split at hnan
  next bits hseen => rw [hseen]; rfl
  next => cases hnan

/-- Coherence says exactly that the walk over a bucket takes one key for the other when
`SameValueZero` does. -/
theorem coherent_iff (size : Nat) (left right : JSValue) :
    store.Coherent size left right ↔
      (store.Recognised size left right ↔ store.keyClass left = store.keyClass right) := by
  rw [Coherent, Recognised, jsSameValueZero_iff]
  constructor
  · rintro ⟨hsame, hother⟩
    constructor
    · rintro ⟨_, _, hclass | hnan⟩
      · exact hclass
      · exact of_not_not fun hne => hother hne hnan
    · intro hclass
      obtain ⟨hknown, hbucket⟩ := hsame hclass
      exact ⟨hbucket, hknown, Or.inl hclass⟩
  · intro hiff
    constructor
    · intro hclass
      obtain ⟨hbucket, hknown, _⟩ := hiff.mpr hclass
      exact ⟨hknown, hbucket⟩
    · intro hne hnan
      exact hne (hiff.mp ⟨store.bucket_of_readsNaN size hnan.1 hnan.2,
        store.known_of_readsNaN hnan.1, Or.inr hnan⟩)

/-- Normalizing a key does not make it another key. -/
theorem keyClass_mapNormalizeKey (key : JSValue) :
    store.keyClass (store.mapNormalizeKey key) = store.keyClass key := by
  unfold mapNormalizeKey
  split
  next bits hseen =>
    split
    next hzero =>
      rcases store.seen_cases key with hkey | ⟨_, nan, _, hkey, hnan⟩
      · rw [← hkey, hseen, keyClass, keyClass,
          (Double.canonical_eq_iff bits 0).mpr (Or.inr hzero)]
        rfl
      · rw [hkey, JSValue.float64.injEq] at hseen
        subst bits
        simp [Double.equal, hnan] at hzero
    next => rfl
  next => rfl

end KeyStore

end QuickjsBackend
