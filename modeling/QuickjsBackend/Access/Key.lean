import Mathlib.Logic.Equiv.List
import QuickjsBackend.Access.Conversion

/-! # Property keys that are numbers

`Object::Set` and `Object::Get` pass a key that is a number through `Uint32Value` to
the entry points for array indices, any other key through an atom. Atoms are names
with texts; the text of a number is that of its value.
-/

namespace QuickjsBackend

open Foundation

variable {State Contents : Type}

/-- `JS_SetProperty` with an atom, as `Object::Set` goes on from `JS_ValueToAtom`. -/
def Object.setNamed (engine : Engine State Contents) (this : JSValue) (atom : JSAtom)
    (value : JSValue) (state : State) : Option Bool × State :=
  let ok := engine.setProperty this atom value state
  (some (ok.1 != 0), ok.2)

/-- `JS_GetProperty` with an atom. -/
def Object.getNamed (engine : Engine State Contents) (this : JSValue) (atom : JSAtom)
    (state : State) : Option JSValue × State :=
  let ret := engine.getProperty this atom state
  (some ret.1, ret.2)

/-- How an engine names properties: the atom of a text, and the text of a number, which
is the same for both zeros and for all NaN and for no other two. An index stands for
the property with its decimal digits, and properties can be told apart by reading. -/
structure Naming (engine : Engine State Contents) (numeric : Numeric) where
  newAtom : String → JSAtom
  numberToString : BitVec 64 → String
  newAtom_injective : Function.Injective newAtom
  numberToString_eq_iff : ∀ d e,
    numberToString d = numberToString e ↔ Double.canonical d = Double.canonical e
  numberToString_ofInt : ∀ i : BitVec 32, numberToString (Double.ofInt i.toNat) = toString i.toNat
  uint32Value : ∀ key, key.isNumber = true →
    some (engine.uint32Value key) = Value.uint32Value numeric key
  setPropertyUint32 : ∀ this i, engine.setPropertyUint32 this i =
    engine.setProperty this (newAtom (toString i.toNat))
  getPropertyUint32 : ∀ this i, engine.getPropertyUint32 this i =
    engine.getProperty this (newAtom (toString i.toNat))
  getProperty_injective : ∀ atom other, (∀ this state,
    engine.getProperty this atom state = engine.getProperty this other state) → atom = other

/-- The double that a number is. -/
def JSValue.double : JSValue → BitVec 64
  | .int value => Double.ofInt value.toInt
  | .float64 bits => bits
  | _ => Double.nan

theorem Numeric.toFloat64_of_isNumber (numeric : Numeric) {key : JSValue}
    (hnumber : key.isNumber = true) : numeric.toFloat64 key = some key.double := by
  cases key with
  | int value => rfl
  | float64 bits => rfl
  | _ => cases hnumber

theorem truncate_of_isZero {d : BitVec 64} (hzero : Double.isZero d = true) :
    Double.truncate d = 0 := by
  have hmod := (Cells.isZero_iff d).mp hzero
  have hexp : Double.exponent d < 1023 := by
    rw [Double.exponent_eq]
    omega
  simp [Double.truncate, hexp]

theorem toNat_natAbs_lt (i : BitVec 32) : (i.toNat : Int).natAbs < 2 ^ 53 := by
  have hlt := i.isLt
  omega

/-- The integer part of a double with the value of an unsigned integer. -/
theorem truncate_of_canonical {d : BitVec 64} {i : BitVec 32}
    (hcanonical : Double.canonical d = Double.canonical (Double.ofInt i.toNat)) :
    Double.truncate d = i.toNat := by
  have hinteger := Double.truncate_ofInt (toNat_natAbs_lt i)
  rcases (Double.canonical_eq_iff _ _).mp hcanonical with ⟨_, hnan⟩ | hequal
  · rw [Double.not_isNaN_ofInt (toNat_natAbs_lt i)] at hnan
    cases hnan
  · simp only [Double.equal, Bool.and_eq_true, Bool.or_eq_true, decide_eq_true_eq] at hequal
    rcases hequal.2 with heq | ⟨hzero, hother⟩
    · rw [heq, hinteger]
    · rw [truncate_of_isZero hzero, ← hinteger, truncate_of_isZero hother]

theorem ofInt_toNat (i : BitVec 32) : BitVec.ofInt 32 i.toNat = i := by
  rw [BitVec.ofInt_natCast, BitVec.ofNat_toNat, BitVec.setWidth_eq]

theorem castUint32_of_canonical (numeric : Numeric) {d : BitVec 64} {i : BitVec 32}
    (hcanonical : Double.canonical d = Double.canonical (Double.ofInt i.toNat)) :
    numeric.castUint32 d = i := by
  have hi := i.isLt
  have htruncate := truncate_of_canonical hcanonical
  rw [Numeric.castUint32, if_pos ⟨by omega, by omega⟩, htruncate, ofInt_toNat]

namespace Naming

variable {engine : Engine State Contents} {numeric : Numeric} (naming : Naming engine numeric)
  {key : JSValue}

/-- The atom of `ToPropertyKey` of a number. -/
def toPropertyKey (key : JSValue) : JSAtom := naming.newAtom (naming.numberToString key.double)

include naming in
theorem uint32Value_eq (hnumber : key.isNumber = true) :
    engine.uint32Value key = numeric.castUint32 key.double := by
  have heq := naming.uint32Value key hnumber
  rw [Value.uint32Value, numeric.toFloat64_of_isNumber hnumber, Option.map_some] at heq
  exact Option.some.inj heq

/-- A number key addresses the property of the index its cast gives. -/
theorem get_eq_getNamed (hnumber : key.isNumber = true) (this : JSValue) (state : State) :
    Object.get engine this key state = Object.getNamed engine this
      (naming.newAtom (toString (numeric.castUint32 key.double).toNat)) state := by
  simp only [Object.get, hnumber, if_true, naming.uint32Value_eq hnumber, naming.getPropertyUint32,
    Object.getNamed]

theorem set_eq_setNamed (hnumber : key.isNumber = true) (this value : JSValue) (state : State) :
    Object.set engine this key value state = Object.setNamed engine this
      (naming.newAtom (toString (numeric.castUint32 key.double).toNat)) value state := by
  simp only [Object.set, hnumber, if_true, naming.uint32Value_eq hnumber, naming.setPropertyUint32,
    Object.setNamed]

/-- Setting and getting go to the property of the key exactly for numbers that are
unsigned 32-bit integers or a zero. -/
theorem addresses_iff (hnumber : key.isNumber = true) :
    ((∀ this value state, Object.set engine this key value state =
        Object.setNamed engine this (naming.toPropertyKey key) value state) ∧
      ∀ this state, Object.get engine this key state =
        Object.getNamed engine this (naming.toPropertyKey key) state) ↔
      ∃ i : BitVec 32, Double.canonical key.double = Double.canonical (Double.ofInt i.toNat) := by
  constructor
  · rintro ⟨_, hget⟩
    refine ⟨numeric.castUint32 key.double, ?_⟩
    have hatom : naming.newAtom (toString (numeric.castUint32 key.double).toNat) =
        naming.toPropertyKey key := by
      refine naming.getProperty_injective _ _ fun this state => ?_
      have heq := (naming.get_eq_getNamed hnumber this state).symm.trans (hget this state)
      simp only [Object.getNamed, Prod.mk.injEq, Option.some.injEq] at heq
      exact Prod.ext heq.1 heq.2
    have htext := naming.newAtom_injective hatom
    rw [← naming.numberToString_ofInt] at htext
    exact (naming.numberToString_eq_iff _ _).mp htext.symm
  · rintro ⟨i, hcanonical⟩
    have hatom : naming.newAtom (toString (numeric.castUint32 key.double).toNat) =
        naming.toPropertyKey key := by
      rw [castUint32_of_canonical numeric hcanonical, toPropertyKey,
        (naming.numberToString_eq_iff _ _).mpr hcanonical, naming.numberToString_ofInt]
    constructor
    · intro this value state
      rw [naming.set_eq_setNamed hnumber, hatom]
    · intro this state
      rw [naming.get_eq_getNamed hnumber, hatom]

/-- The unsigned integer that a double has the value of. -/
def indexOf (d : BitVec 64) : Option Nat :=
  let i := BitVec.ofInt 32 (Double.truncate (Double.canonical d))
  if Double.canonical d = Double.canonical (Double.ofInt i.toNat) then some i.toNat else none

theorem indexOf_ofInt (i : BitVec 32) : indexOf (Double.ofInt i.toNat) = some i.toNat := by
  have htruncate := truncate_of_canonical (i := i) (Double.canonical_canonical
    (Double.ofInt i.toNat))
  simp only [indexOf, htruncate, ofInt_toNat, if_true]

theorem canonical_of_indexOf {d : BitVec 64} {i : Nat} (hindex : indexOf d = some i) :
    Double.canonical d = Double.canonical (Double.ofInt i) := by
  simp only [indexOf] at hindex
  split at hindex
  next heq =>
    cases hindex
    exact heq
  next => cases hindex

/-- A text for each value of a double, the digits for unsigned integers. -/
def text (d : BitVec 64) : String :=
  match indexOf d with
  | some i => toString i
  | none => "-" ++ toString (Double.canonical d).toNat

theorem toString_injective : Function.Injective (toString : Nat → String) := by
  intro m n heq
  have hdigits : Nat.toDigits 10 m = Nat.toDigits 10 n := by
    rw [← Nat.toList_repr, ← Nat.toList_repr]
    exact congrArg String.toList heq
  rw [← Nat.ofDigitChars_toDigits (by decide : 1 < 10) (Nat.le_refl 10) (n := m), hdigits,
    Nat.ofDigitChars_toDigits (by decide) (Nat.le_refl 10)]

theorem toString_ne_minus (n : Nat) (rest : String) : toString n ≠ "-" ++ rest := by
  intro heq
  have hmem : '-' ∈ Nat.toDigits 10 n := by
    rw [← Nat.toList_repr]
    have hlist : n.repr.toList = ("-" ++ rest).toList := congrArg String.toList heq
    rw [hlist, String.toList_append]
    exact List.mem_append_left _ (by decide)
  exact absurd (Nat.isDigit_of_mem_toDigits (by decide) (Nat.le_refl 10) hmem) (by decide)

theorem text_eq_iff (d e : BitVec 64) :
    text d = text e ↔ Double.canonical d = Double.canonical e := by
  refine ⟨fun heq => ?_, fun heq => by simp only [text, indexOf, heq]⟩
  unfold text at heq
  cases hd : indexOf d with
  | some i =>
      cases he : indexOf e with
      | some j =>
          simp only [hd, he] at heq
          rw [canonical_of_indexOf hd, canonical_of_indexOf he, toString_injective heq]
      | none =>
          simp only [hd, he] at heq
          exact absurd heq (toString_ne_minus i _)
  | none =>
      cases he : indexOf e with
      | some j =>
          simp only [hd, he] at heq
          exact absurd heq.symm (toString_ne_minus j _)
      | none =>
          simp only [hd, he] at heq
          exact BitVec.eq_of_toNat_eq (toString_injective (String.append_right_inj _ |>.mp heq))

/-- Each text is a name of its own. -/
def atomOfText (text : String) : JSAtom := Encodable.encode (text.toList.map Char.toNat)

theorem atomOfText_injective : Function.Injective atomOfText :=
  Encodable.encode_injective.comp
    ((List.map_injective_iff.mpr fun _ _ h => Char.toNat_inj.mp h).comp
      fun _ _ h => String.toList_injective h)

/-- An engine that answers a read with the name it was asked for. -/
def echo : Engine Unit Unit where
  valueToAtom _ _ := (atomNull, ())
  setProperty _ _ _ _ := (1, ())
  setPropertyUint32 _ _ _ _ := (1, ())
  getProperty _ atom _ := (.external atom, ())
  getPropertyUint32 _ i _ := (.external (atomOfText (toString i.toNat)), ())
  getOwnPropertyNamesAsArray _ _ := (.undefined, ())
  getOwnProperty _ _ _ := (0, ())
  setPrototype _ _ _ := (1, ())
  toString _ _ := (.undefined, ())
  toFloat64 _ _ := ((0, 0), ())
  mapGet _ _ _ := (.undefined, ())
  mapSet _ _ _ _ := (.undefined, ())
  mapDelete _ _ _ := (.undefined, ())
  uint32Value key := Numeric.castUint32 ⟨false, fun _ => none, fun _ => 0, fun _ => 0, fun _ => 0⟩
    key.double
  pending _ := none
  tryCatches _ := []
  contents _ _ := ()

def ofEcho : Naming echo ⟨false, fun _ => none, fun _ => 0, fun _ => 0, fun _ => 0⟩ where
  newAtom := atomOfText
  numberToString := text
  newAtom_injective := atomOfText_injective
  numberToString_eq_iff := text_eq_iff
  numberToString_ofInt i := by rw [text, indexOf_ofInt]
  uint32Value key hnumber := by
    rw [Value.uint32Value, Numeric.toFloat64_of_isNumber _ hnumber]
    rfl
  setPropertyUint32 _ _ := rfl
  getPropertyUint32 _ _ := rfl
  getProperty_injective atom other h := by
    have heq := congrArg Prod.fst (h .undefined ())
    exact JSValue.external.inj heq

theorem addresses_seven : JSValue.isNumber (.int 7) = true ∧
    (((∀ this value state, Object.set echo this (.int 7) value state =
        Object.setNamed echo this (ofEcho.toPropertyKey (.int 7)) value state) ∧
      ∀ this state, Object.get echo this (.int 7) state =
        Object.getNamed echo this (ofEcho.toPropertyKey (.int 7)) state) ↔
      ∃ i : BitVec 32,
        Double.canonical (JSValue.double (.int 7)) = Double.canonical (Double.ofInt i.toNat)) :=
  ⟨rfl, addresses_iff ofEcho rfl⟩

/-- The key one and a half reads the property with the index one. -/
theorem fraction_reads_index : Object.get echo .undefined (.float64 0x3ff8000000000000) () ≠
    Object.getNamed echo .undefined (ofEcho.toPropertyKey (.float64 0x3ff8000000000000)) () := by
  intro heq
  have hatom := JSValue.external.inj (Option.some.inj (congrArg Prod.fst heq))
  have htext := ofEcho.newAtom_injective hatom
  rw [← ofEcho.numberToString_ofInt] at htext
  have hcanonical := (ofEcho.numberToString_eq_iff _ _).mp htext
  exact absurd hcanonical (by decide)

end Naming

end QuickjsBackend
