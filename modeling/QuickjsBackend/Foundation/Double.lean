import Mathlib.Tactic.Ring
import Mathlib.Tactic.Linarith
import Mathlib.Data.Nat.Log

/-! # Bit patterns of doubles

A double is given by its 64 bits: sign, biased exponent and fraction. Integers
below `2 ^ 53` have an exact pattern, and cutting off the fractional part of that
pattern gives the integer back.
-/

namespace Foundation

namespace Double

variable (bits : BitVec 64)

def negative : Bool := bits.msb

def exponent : Nat := (bits >>> 52 &&& 0x7ff#64).toNat

def fraction : Nat := (bits &&& 0xfffffffffffff#64).toNat

def isNaN : Bool := 0x7ff0000000000000#64 < bits &&& 0x7fffffffffffffff#64

def isZero : Bool := bits &&& 0x7fffffffffffffff#64 = 0

/-- A quiet NaN. -/
def nan : BitVec 64 := 0x7ff8000000000000

/-- `==` on doubles. -/
def equal (left right : BitVec 64) : Bool :=
  !isNaN left && !isNaN right && (left = right || isZero left && isZero right)

/-- Doubles of one sign are ordered as their patterns. -/
def rank : Int :=
  if negative bits then -((bits &&& 0x7fffffffffffffff#64).toNat : Int)
  else (bits &&& 0x7fffffffffffffff#64).toNat

/-- `<=` on doubles. -/
def atMost (left right : BitVec 64) : Bool :=
  !isNaN left && !isNaN right && rank left ≤ rank right

/-- One pattern for every number: there is one zero and one NaN. -/
def canonical : BitVec 64 :=
  if isNaN bits then nan else if isZero bits then 0 else bits

/-- The integer part, rounded toward zero. -/
def truncate : Int :=
  let magnitude : Nat :=
    if exponent bits < 1023 then 0
    else if exponent bits ≤ 1075 then (2 ^ 52 + fraction bits) / 2 ^ (1075 - exponent bits)
    else (2 ^ 52 + fraction bits) * 2 ^ (exponent bits - 1075)
  if negative bits then -magnitude else magnitude

/-- The pattern with the given fields. -/
def pack (negative : Bool) (exponent fraction : Nat) : BitVec 64 :=
  BitVec.ofNat 64 (negative.toNat * 2 ^ 63 + exponent * 2 ^ 52 + fraction)

/-- The pattern of an integer below `2 ^ 53`. -/
def ofInt (value : Int) : BitVec 64 :=
  if value = 0 then 0
  else pack (value < 0) (value.natAbs.log2 + 1023)
    (value.natAbs * 2 ^ (52 - value.natAbs.log2) - 2 ^ 52)

/-- The same number, any NaN counting as any other. -/
def Same (left right : BitVec 64) : Prop :=
  left = right ∨ (isNaN left = true ∧ isNaN right = true)

theorem Same.symm {left right : BitVec 64} (hsame : Same left right) : Same right left := by
  rcases hsame with heq | ⟨hleft, hright⟩
  · exact Or.inl heq.symm
  · exact Or.inr ⟨hright, hleft⟩

theorem Same.trans {left middle right : BitVec 64} (hfirst : Same left middle)
    (hsecond : Same middle right) : Same left right := by
  rcases hfirst with rfl | ⟨hleft, hmiddle⟩
  · exact hsecond
  · rcases hsecond with rfl | ⟨_, hright⟩
    · exact Or.inr ⟨hleft, hmiddle⟩
    · exact Or.inr ⟨hleft, hright⟩

variable {sign : Bool} {exp frac : Nat}

theorem toNat_pack (hexp : exp < 2 ^ 11) (hfrac : frac < 2 ^ 52) :
    (pack sign exp frac).toNat = sign.toNat * 2 ^ 63 + exp * 2 ^ 52 + frac := by
  have hsign := Bool.toNat_le sign
  rw [pack, BitVec.toNat_ofNat]
  exact Nat.mod_eq_of_lt (by omega)

theorem toNat_and_mask (width : Nat) (mask : BitVec 64) (hmask : mask.toNat = 2 ^ width - 1) :
    (bits &&& mask).toNat = bits.toNat % 2 ^ width := by
  rw [BitVec.toNat_and, hmask, Nat.and_two_pow_sub_one_eq_mod]

theorem exponent_eq : exponent bits = bits.toNat / 2 ^ 52 % 2 ^ 11 := by
  rw [exponent, toNat_and_mask _ 11 _ (by decide), BitVec.toNat_ushiftRight,
    Nat.shiftRight_eq_div_pow]

theorem fraction_eq : fraction bits = bits.toNat % 2 ^ 52 := toNat_and_mask _ 52 _ (by decide)

theorem isNaN_iff : isNaN bits = true ↔ 0x7ff0000000000000 < bits.toNat % 2 ^ 63 := by
  rw [isNaN, decide_eq_true_iff, BitVec.lt_def, toNat_and_mask _ 63 _ (by decide)]
  rfl

theorem exponent_pack (hexp : exp < 2 ^ 11) (hfrac : frac < 2 ^ 52) :
    exponent (pack sign exp frac) = exp := by
  rw [exponent_eq, toNat_pack hexp hfrac]
  omega

theorem fraction_pack (hexp : exp < 2 ^ 11) (hfrac : frac < 2 ^ 52) :
    fraction (pack sign exp frac) = frac := by
  rw [fraction_eq, toNat_pack hexp hfrac]
  omega

theorem negative_pack (hexp : exp < 2 ^ 11) (hfrac : frac < 2 ^ 52) :
    negative (pack sign exp frac) = sign := by
  rw [negative, BitVec.msb_eq_decide, toNat_pack hexp hfrac]
  cases sign with
  | false => simp only [Bool.toNat_false, decide_eq_false_iff_not]; omega
  | true => simp only [Bool.toNat_true, decide_eq_true_iff]; omega

/-- The fields of the pattern of an integer. -/
theorem ofInt_fields {value : Int} (hne : value ≠ 0) (hlt : value.natAbs < 2 ^ 53) :
    value.natAbs.log2 ≤ 52 ∧ 2 ^ 52 ≤ value.natAbs * 2 ^ (52 - value.natAbs.log2) ∧
      value.natAbs * 2 ^ (52 - value.natAbs.log2) < 2 ^ 53 := by
  have hpos : value.natAbs ≠ 0 := by omega
  have hlog : value.natAbs.log2 < 53 := (Nat.log2_lt hpos).mpr hlt
  have hlower : 2 ^ value.natAbs.log2 ≤ value.natAbs := Nat.log2_self_le hpos
  have hupper : value.natAbs < 2 ^ (value.natAbs.log2 + 1) := Nat.lt_log2_self
  have hscale : 2 ^ value.natAbs.log2 * 2 ^ (52 - value.natAbs.log2) = 2 ^ 52 := by
    rw [← pow_add]
    congr 1
    omega
  refine ⟨by omega, ?_, ?_⟩
  · calc 2 ^ 52 = 2 ^ value.natAbs.log2 * 2 ^ (52 - value.natAbs.log2) := hscale.symm
      _ ≤ _ := Nat.mul_le_mul_right _ hlower
  · calc value.natAbs * 2 ^ (52 - value.natAbs.log2)
        < 2 ^ (value.natAbs.log2 + 1) * 2 ^ (52 - value.natAbs.log2) :=
          Nat.mul_lt_mul_of_pos_right hupper (Nat.two_pow_pos _)
      _ = 2 ^ 53 := by rw [pow_succ, Nat.mul_right_comm, hscale]; rfl

/-- The integer part of the pattern of an integer is the integer. -/
theorem truncate_ofInt {value : Int} (hlt : value.natAbs < 2 ^ 53) :
    truncate (ofInt value) = value := by
  by_cases hzero : value = 0
  · subst value
    decide
  · obtain ⟨hlog, hlower, hupper⟩ := ofInt_fields hzero hlt
    have hexp : value.natAbs.log2 + 1023 < 2 ^ 11 := by omega
    have hfrac : value.natAbs * 2 ^ (52 - value.natAbs.log2) - 2 ^ 52 < 2 ^ 52 := by omega
    have hmagnitude : (2 ^ 52 + (value.natAbs * 2 ^ (52 - value.natAbs.log2) - 2 ^ 52)) /
        2 ^ (1075 - (value.natAbs.log2 + 1023)) = value.natAbs := by
      rw [Nat.add_sub_cancel' hlower,
        show 1075 - (value.natAbs.log2 + 1023) = 52 - value.natAbs.log2 by omega]
      exact Nat.mul_div_cancel _ (Nat.two_pow_pos _)
    have hnormal : ¬ value.natAbs.log2 + 1023 < 1023 := by omega
    have hsmall : value.natAbs.log2 + 1023 ≤ 1075 := by omega
    simp only [truncate, ofInt, hzero, if_false, exponent_pack hexp hfrac,
      fraction_pack hexp hfrac, negative_pack hexp hfrac, hmagnitude, hnormal, hsmall, if_true]
    split
    next hsign =>
      have hneg := of_decide_eq_true hsign
      omega
    next hsign =>
      have hnonneg : ¬ value < 0 := fun h => hsign (decide_eq_true h)
      omega

/-- The exponent of an integer is at most that of the next power of two. -/
theorem exponent_ofInt_le {value : Int} (hlt : value.natAbs < 2 ^ 53) :
    exponent (ofInt value) ≤ 1023 + 52 := by
  by_cases hzero : value = 0
  · subst value
    decide
  · obtain ⟨hlog, hlower, hupper⟩ := ofInt_fields hzero hlt
    rw [ofInt, if_neg hzero, exponent_pack (by omega) (by omega)]
    omega

theorem not_isNaN_ofInt {value : Int} (hlt : value.natAbs < 2 ^ 53) :
    isNaN (ofInt value) = false := by
  have hexp := exponent_ofInt_le hlt
  rw [exponent_eq] at hexp
  rw [← Bool.not_eq_true, isNaN_iff]
  omega

/-- What is the same number as an integer has its pattern. -/
theorem eq_of_same_ofInt {value : Int} (hlt : value.natAbs < 2 ^ 53)
    (hsame : Same bits (ofInt value)) : bits = ofInt value := by
  rcases hsame with heq | ⟨_, hnan⟩
  · exact heq
  · rw [not_isNaN_ofInt hlt] at hnan
    cases hnan

theorem canonical_eq_nan_iff : canonical bits = nan ↔ isNaN bits = true := by
  unfold canonical
  split
  next hnan => exact iff_of_true rfl hnan
  next hnumber =>
    split
    next => exact iff_of_false (by decide) hnumber
    next =>
      refine iff_of_false (fun heq => hnumber ?_) hnumber
      rw [heq]
      decide

theorem canonical_eq_zero_iff : canonical bits = 0 ↔ isZero bits = true := by
  unfold canonical
  split
  next hnan =>
    refine iff_of_false (by decide) fun hzero => ?_
    rw [isNaN, of_decide_eq_true hzero] at hnan
    exact absurd hnan (by decide)
  next =>
    split
    next hzero => exact iff_of_true rfl hzero
    next hzero =>
      refine iff_of_false (fun heq => hzero ?_) hzero
      rw [heq]
      decide

@[simp] theorem canonical_canonical : canonical (canonical bits) = canonical bits := by
  by_cases hnan : isNaN bits = true
  · rw [(canonical_eq_nan_iff bits).mpr hnan]
    decide
  · by_cases hzero : isZero bits = true
    · rw [(canonical_eq_zero_iff bits).mpr hzero]
      decide
    · have hself : canonical bits = bits := by simp [canonical, hnan, hzero]
      rw [hself, hself]

/-- Patterns have one canonical pattern when the numbers are equal or both are none. -/
theorem canonical_eq_iff (left right : BitVec 64) :
    canonical left = canonical right ↔
      isNaN left = true ∧ isNaN right = true ∨ equal left right = true := by
  by_cases hleft : isNaN left = true
  · have hcanonical := (canonical_eq_nan_iff left).mpr hleft
    rw [hcanonical, eq_comm, canonical_eq_nan_iff]
    simp [hleft, equal]
  · by_cases hright : isNaN right = true
    · have hcanonical := (canonical_eq_nan_iff right).mpr hright
      rw [hcanonical, canonical_eq_nan_iff]
      simp [hleft, hright, equal]
    · by_cases hzero : isZero right = true
      · rw [(canonical_eq_zero_iff right).mpr hzero, canonical_eq_zero_iff]
        simp only [equal, hleft, hright, hzero, Bool.not_false, Bool.true_and, Bool.and_true,
          Bool.or_eq_true, decide_eq_true_eq, Bool.false_eq_true, false_and, false_or]
        exact ⟨Or.inr, fun h => h.elim (fun heq => heq ▸ hzero) id⟩
      · by_cases hleftZero : isZero left = true
        · rw [(canonical_eq_zero_iff left).mpr hleftZero, eq_comm, canonical_eq_zero_iff]
          simp only [equal, hleft, hright, hzero, hleftZero, Bool.not_false, Bool.true_and,
            Bool.and_false, Bool.or_false, decide_eq_true_eq, Bool.false_eq_true, false_and,
            false_or, false_iff]
          exact fun heq => hzero (heq ▸ hleftZero)
        · simp [canonical, equal, hleft, hright, hzero, hleftZero]

end Double

end Foundation
