import Mathlib.Data.Nat.Bitwise
import Mathlib.Tactic.Ring

/-! # Big integers

A big integer is a mantissa of 64-bit limbs, the least significant first, times a power
of two, with a sign apart. The accessors take it modulo `2 ^ 64`; the pointer for the
loss of bits is passed on and never written.
-/

namespace QuickjsBackend

/-- The number with the given limbs. -/
def limbValue : List (BitVec 64) → Nat
  | [] => 0
  | limb :: rest => limb.toNat + 2 ^ 64 * limbValue rest

/-- A mantissa shifted right by a number of bits, left by a negative one. -/
def shifted (mantissa : Nat) (pos : Int) : Nat :=
  if 0 ≤ pos then mantissa / 2 ^ pos.toNat else mantissa * 2 ^ (-pos).toNat

/-- `BF_EXP_INF`. -/
def expInf : Int := 2 ^ 63 - 2

/-- A `bf_t` that is an integer: its mantissa has no bits behind the point. -/
structure BfInteger where
  sign : Bool
  expn : Int
  tab : List (BitVec 64)
  finite : expn < expInf
  whole : 0 ≤ 64 * tab.length - expn → 2 ^ (64 * tab.length - expn).toNat ∣ limbValue tab

namespace BfInteger

def bitPos (a : BfInteger) : Int := 64 * a.tab.length - a.expn

def magnitude (a : BfInteger) : Nat := shifted (limbValue a.tab) a.bitPos

def value (a : BfInteger) : Int := if a.sign then -a.magnitude else a.magnitude

end BfInteger

/-- `tab[i]`, zero for any index out of range, as `get_bits` has it. -/
def getLimb (tab : List (BitVec 64)) (i : Int) : BitVec 64 :=
  if 0 ≤ i then tab.getD i.toNat 0 else 0

/-- `get_bits`. -/
def getBits (tab : List (BitVec 64)) (pos : Int) : BitVec 64 :=
  let i := pos / 64
  let p := (pos % 64).toNat
  if p = 0 then getLimb tab i
  else getLimb tab i >>> p ||| getLimb tab (i + 1) <<< (64 - p)

/-- `bf_get_int64` with `BF_GET_INT_MOD`. -/
def bfGetInt64 (a : BfInteger) : BitVec 64 :=
  if expInf ≤ a.expn then 0
  else if a.expn ≤ 0 then 0
  else
    let v := if a.expn ≤ 63 then a.tab.getD (a.tab.length - 1) 0 >>> (64 - a.expn).toNat
      else getBits a.tab a.bitPos
    if a.sign then -v else v

/-- `clz` of a limb that is not zero. -/
def clz (a : BitVec 64) : Nat := 63 - a.toNat.log2

theorem mul_two_pow_clz_lt {a : BitVec 64} (ha : a ≠ 0) : a.toNat * 2 ^ clz a < 2 ^ 64 := by
  have hne : a.toNat ≠ 0 := fun h => ha (BitVec.eq_of_toNat_eq h)
  have hlog : a.toNat.log2 < 64 := (Nat.log2_lt hne).mpr a.isLt
  calc a.toNat * 2 ^ clz a < 2 ^ (a.toNat.log2 + 1) * 2 ^ clz a :=
        Nat.mul_lt_mul_of_pos_right Nat.lt_log2_self (Nat.two_pow_pos _)
    _ = 2 ^ 64 := by rw [← pow_add, clz]; congr 1; omega

/-- `bf_set_ui`, with the sign that `bf_set_si` gives the number afterwards. -/
def bfSetUi (sign : Bool) (a : BitVec 64) : BfInteger :=
  if ha : a = 0 then
    { sign, expn := -2 ^ 63, tab := [], finite := by decide, whole := fun _ => dvd_zero _ }
  else
    { sign
      expn := 64 - clz a
      tab := [a <<< clz a]
      finite := by
        have hinf : expInf = 2 ^ 63 - 2 := rfl
        omega
      whole := fun _ => by
        have hlt := mul_two_pow_clz_lt ha
        have hpos : (64 * ([a <<< clz a] : List (BitVec 64)).length - (64 - clz a : Int)).toNat =
            clz a := by
          simp
        rw [hpos, limbValue, limbValue, Nat.mul_zero, Nat.add_zero, BitVec.toNat_shiftLeft,
          Nat.shiftLeft_eq, Nat.mod_eq_of_lt hlt]
        exact Nat.dvd_mul_left _ _ }

/-- `bf_set_si`. -/
def bfSetSi (a : BitVec 64) : BfInteger :=
  if a.toInt < 0 then bfSetUi true (-a) else bfSetUi false a

theorem toNat_getD (tab : List (BitVec 64)) (k : Nat) :
    (tab.getD k 0).toNat = limbValue tab / 2 ^ (64 * k) % 2 ^ 64 := by
  induction tab generalizing k with
  | nil => simp [limbValue]
  | cons limb rest ih =>
      have hlimb := limb.isLt
      cases k with
      | zero =>
          rw [List.getD_cons_zero, limbValue, Nat.mul_zero, pow_zero, Nat.div_one,
            Nat.add_mul_mod_self_left, Nat.mod_eq_of_lt hlimb]
      | succ k =>
          have hrest : limbValue (limb :: rest) / 2 ^ 64 = limbValue rest := by
            rw [limbValue, Nat.add_mul_div_left _ _ (Nat.two_pow_pos 64), Nat.div_eq_of_lt hlimb,
              Nat.zero_add]
          rw [List.getD_cons_succ, ih, Nat.mul_succ, Nat.add_comm, pow_add,
            ← Nat.div_div_eq_div_mul,
            hrest]

/-- Two neighbouring limbs hold the 64 bits from a position within the first of them. -/
theorem div_or_shiftLeft (n p : Nat) (hp : p < 64) :
    n % 2 ^ 64 / 2 ^ p ||| (n / 2 ^ 64 % 2 ^ 64) * 2 ^ (64 - p) % 2 ^ 64 = n / 2 ^ p % 2 ^ 64 := by
  have hsplit : 2 ^ 64 = 2 ^ p * 2 ^ (64 - p) := by rw [← pow_add]; congr 1; omega
  have hfirst : n % 2 ^ 64 / 2 ^ p = n / 2 ^ p % 2 ^ (64 - p) := by
    rw [hsplit, Nat.mod_mul_right_div_self]
  have hsecond : (n / 2 ^ 64 % 2 ^ 64) * 2 ^ (64 - p) % 2 ^ 64 =
      2 ^ (64 - p) * (n / 2 ^ p / 2 ^ (64 - p) % 2 ^ p) := by
    have hdvd : 2 ^ p ∣ 2 ^ 64 := ⟨_, hsplit⟩
    rw [Nat.mul_comm, show 2 ^ 64 = 2 ^ (64 - p) * 2 ^ p by rw [hsplit, Nat.mul_comm],
      Nat.mul_mod_mul_left, Nat.div_div_eq_div_mul, Nat.mul_comm (2 ^ p), ← Nat.mul_comm (2 ^ p),
      ← hsplit, Nat.mod_mod_of_dvd _ hdvd]
  have hlt : n / 2 ^ p % 2 ^ (64 - p) < 2 ^ (64 - p) := Nat.mod_lt _ (Nat.two_pow_pos _)
  rw [hfirst, hsecond, Nat.or_comm, ← Nat.two_pow_add_eq_or_of_lt hlt]
  rw [show 2 ^ 64 = 2 ^ (64 - p) * 2 ^ p by rw [hsplit, Nat.mul_comm], Nat.mod_mul, Nat.add_comm]

/-- `get_bits` gives 64 bits of the shifted number. -/
theorem toNat_getBits (tab : List (BitVec 64)) (pos : Int) :
    (getBits tab pos).toNat = shifted (limbValue tab) pos % 2 ^ 64 := by
  have hp : (pos % 64).toNat < 64 := by omega
  by_cases hnonneg : 0 ≤ pos
  · have hlimb : ∀ k : Int, 0 ≤ k →
        (getLimb tab k).toNat = limbValue tab / 2 ^ (64 * k.toNat) % 2 ^ 64 := by
      intro k hk
      rw [getLimb, if_pos hk, toNat_getD]
    have hpos : pos.toNat = 64 * (pos / 64).toNat + (pos % 64).toNat := by omega
    have hnext : (pos / 64 + 1).toNat = (pos / 64).toNat + 1 := by omega
    rw [shifted, if_pos hnonneg, hpos, pow_add, ← Nat.div_div_eq_div_mul, getBits]
    split
    next hzero => rw [hlimb _ (by omega), hzero, pow_zero, Nat.div_one]
    next =>
      rw [BitVec.toNat_or, BitVec.toNat_ushiftRight, BitVec.toNat_shiftLeft,
        Nat.shiftRight_eq_div_pow, Nat.shiftLeft_eq, hlimb _ (by omega), hlimb _ (by omega), hnext,
        Nat.mul_succ, pow_add, ← Nat.div_div_eq_div_mul]
      exact div_or_shiftLeft _ _ hp
  · have hbelow : getLimb tab (pos / 64) = 0#64 := if_neg (by omega)
    rw [shifted, if_neg hnonneg, getBits]
    simp only [hbelow]
    by_cases hlast : pos / 64 = -1 ∧ (pos % 64).toNat ≠ 0
    · obtain ⟨hindex, hne⟩ := hlast
      have hshift : (-pos).toNat = 64 - (pos % 64).toNat := by omega
      have hfirst : (getLimb tab 0).toNat = limbValue tab % 2 ^ 64 := by
        rw [getLimb, if_pos (le_refl 0), Int.toNat_zero, toNat_getD, Nat.mul_zero, pow_zero, Nat.div_one]
      have hnext : (-1 : Int) + 1 = 0 := rfl
      rw [if_neg hne, hindex, hnext, BitVec.zero_ushiftRight,
        BitVec.zero_or, BitVec.toNat_shiftLeft, Nat.shiftLeft_eq, hfirst, hshift, Nat.mod_mul_mod]
    · have hlarge : 64 ≤ (-pos).toNat := by
        by_contra hsmall
        exact hlast ⟨by omega, by omega⟩
      have hdvd : 2 ^ 64 ∣ limbValue tab * 2 ^ (-pos).toNat :=
        Dvd.dvd.mul_left (Nat.pow_dvd_pow 2 hlarge) _
      rw [Nat.mod_eq_zero_of_dvd hdvd]
      split
      next => rfl
      next hne =>
        have hnext : getLimb tab (pos / 64 + 1) = 0 := if_neg (by omega)
        rw [hnext]
        simp

theorem limbValue_lt (tab : List (BitVec 64)) : limbValue tab < 2 ^ (64 * tab.length) := by
  induction tab with
  | nil => exact Nat.one_pos
  | cons limb rest ih =>
      have hlimb := limb.isLt
      rw [limbValue, List.length_cons, Nat.mul_succ, Nat.add_comm (64 * rest.length), pow_add]
      have hle : 2 ^ 64 * (limbValue rest + 1) ≤ 2 ^ 64 * 2 ^ (64 * rest.length) :=
        Nat.mul_le_mul_left _ ih
      omega

/-- The last limb is what lies above the others. -/
theorem toNat_getLast (tab : List (BitVec 64)) :
    (tab.getD (tab.length - 1) 0).toNat = limbValue tab / 2 ^ (64 * (tab.length - 1)) := by
  rw [toNat_getD]
  apply Nat.mod_eq_of_lt
  rw [Nat.div_lt_iff_lt_mul (Nat.two_pow_pos _), ← pow_add]
  exact lt_of_lt_of_le (limbValue_lt tab) (Nat.pow_le_pow_right (by omega) (by omega))

/-- The integer modulo `2 ^ 64`, whatever its size. -/
theorem bfGetInt64_eq (a : BfInteger) : bfGetInt64 a = BitVec.ofInt 64 a.value := by
  have hmagnitude : ∀ v : BitVec 64, v.toNat = a.magnitude % 2 ^ 64 →
      (if a.sign then -v else v) = BitVec.ofInt 64 a.value := by
    intro v hv
    have heq : v = BitVec.ofNat 64 a.magnitude := BitVec.eq_of_toNat_eq (by rw [hv, BitVec.toNat_ofNat])
    rw [BfInteger.value]
    split
    next => rw [heq, BitVec.ofInt_neg, BitVec.ofInt_natCast]
    next => rw [heq, BitVec.ofInt_natCast]
  have hinf : ¬ expInf ≤ a.expn := not_le.mpr a.finite
  have hlimbs := limbValue_lt a.tab
  rw [bfGetInt64, if_neg hinf]
  by_cases hsmall : a.expn ≤ 0
  · have hzero : a.magnitude = 0 := by
      rw [BfInteger.magnitude, shifted, BfInteger.bitPos, if_pos (by omega)]
      exact Nat.div_eq_of_lt (lt_of_lt_of_le hlimbs (Nat.pow_le_pow_right (by omega) (by omega)))
    have hvalue := hmagnitude 0 (by rw [hzero]; rfl)
    rw [if_pos hsmall, ← hvalue]
    split <;> rfl
  · rw [if_neg hsmall]
    apply hmagnitude
    by_cases hfits : a.expn ≤ 63
    · have hlast := toNat_getLast a.tab
      have hlt := (a.tab.getD (a.tab.length - 1) 0 >>> (64 - a.expn).toNat).isLt
      have hshift : (a.tab.getD (a.tab.length - 1) 0 >>> (64 - a.expn).toNat).toNat =
        a.magnitude := by
        rw [BitVec.toNat_ushiftRight, Nat.shiftRight_eq_div_pow, hlast, BfInteger.magnitude, shifted]
        cases htab : a.tab with
        | nil => simp [limbValue]
        | cons limb rest =>
            have hpos : a.bitPos.toNat = 64 * rest.length + (64 - a.expn).toNat := by
              rw [BfInteger.bitPos, htab, List.length_cons]
              omega
            have hnonneg : 0 ≤ a.bitPos := by
              rw [BfInteger.bitPos, htab, List.length_cons]
              omega
            rw [if_pos hnonneg, hpos, pow_add, List.length_cons, Nat.add_sub_cancel,
              Nat.div_div_eq_div_mul]
      rw [if_pos hfits, hshift, Nat.mod_eq_of_lt (hshift ▸ hlt)]
    · rw [if_neg hfits, toNat_getBits, BfInteger.magnitude]

/-- A single limb with its leading zeros shifted out. -/
theorem value_bfSetUi (sign : Bool) (a : BitVec 64) :
    (bfSetUi sign a).value = if sign then -(a.toNat : Int) else a.toNat := by
  have hmagnitude : (bfSetUi sign a).magnitude = a.toNat := by
    unfold bfSetUi
    split
    next hzero =>
      simp only [BfInteger.magnitude, shifted, limbValue, Nat.zero_div, Nat.zero_mul, ite_self, hzero]
      rfl
    next hne =>
      have hlt := mul_two_pow_clz_lt hne
      have hpos : (64 * (1 : Nat) - (64 - clz a : Int)) = clz a := by omega
      simp only [BfInteger.magnitude, BfInteger.bitPos, List.length_singleton, hpos, shifted, limbValue,
        BitVec.toNat_shiftLeft, Nat.shiftLeft_eq, Nat.mod_eq_of_lt hlt]
      simp
  have hsign : (bfSetUi sign a).sign = sign := by
    unfold bfSetUi
    split <;> rfl
  rw [BfInteger.value, hmagnitude, hsign]

theorem value_bfSetSi (a : BitVec 64) : (bfSetSi a).value = a.toInt := by
  unfold bfSetSi
  split
  next hneg =>
    rw [value_bfSetUi, if_pos rfl, BitVec.toNat_neg]
    have hle := a.le_toInt
    have hcases := BitVec.toInt_eq_toNat_cond a
    have hlt := a.isLt
    omega
  next hnonneg =>
    rw [value_bfSetUi, if_neg Bool.false_ne_true]
    have hcases := BitVec.toInt_eq_toNat_cond a
    have hlt := a.isLt
    omega

namespace BigInt

/-- `BigInt::New`. -/
def new (value : BitVec 64) : BfInteger := bfSetSi value

/-- `BigInt::NewFromUnsigned`. -/
def newFromUnsigned (value : BitVec 64) : BfInteger := bfSetUi false value

/-- `BigInt::Int64Value`, with what the pointer points to afterwards when there is one. -/
def int64Value (this : BfInteger) (lossless : Option Bool) : BitVec 64 × Option Bool :=
  (bfGetInt64 this, lossless)

/-- `BigInt::Uint64Value`. -/
def uint64Value (this : BfInteger) (lossless : Option Bool) : BitVec 64 × Option Bool :=
  int64Value this lossless

/-- What the accessors should do: the integer modulo `2 ^ 64`, and the truth about it
where a pointer is passed. -/
structure Converts (this : BfInteger) (signed unsigned : Option Bool) : Prop where
  int64Value : (int64Value this signed).1 = BitVec.ofInt 64 this.value
  uint64Value : (uint64Value this unsigned).1 = BitVec.ofInt 64 this.value
  signedLossless : ∀ flag, (BigInt.int64Value this signed).2 = some flag →
    (flag = true ↔ (BigInt.int64Value this signed).1.toInt = this.value)
  unsignedLossless : ∀ flag, (BigInt.uint64Value this unsigned).2 = some flag →
    (flag = true ↔ ((BigInt.uint64Value this unsigned).1.toNat : Int) = this.value)

theorem toInt_ofInt_iff (b : Int) : (BitVec.ofInt 64 b).toInt = b ↔ -2 ^ 63 ≤ b ∧ b < 2 ^ 63 := by
  constructor
  · intro heq
    have hlt := (BitVec.ofInt 64 b).toInt_lt
    have hle := (BitVec.ofInt 64 b).le_toInt
    omega
  · rintro ⟨hle, hlt⟩
    rw [BitVec.toInt_ofInt, Int.bmod_eq_of_le (by omega) (by omega)]

theorem toNat_ofInt_iff (b : Int) : ((BitVec.ofInt 64 b).toNat : Int) = b ↔ 0 ≤ b ∧ b < 2 ^ 64 := by
  have hlt := (BitVec.ofInt 64 b).isLt
  rw [BitVec.toNat_ofInt] at hlt ⊢
  omega

/-- The conversions are right for every integer, and the pointers are exactly when they
are null or pointed to the truth before. -/
theorem accessors_iff (i u : BitVec 64) (this : BfInteger) (signed unsigned : Option Bool) :
    (int64Value (new i) none).1 = i ∧
    (uint64Value (newFromUnsigned u) none).1 = u ∧
    (Converts this signed unsigned ↔
      (∀ flag, signed = some flag → (flag = true ↔ -2 ^ 63 ≤ this.value ∧ this.value < 2 ^ 63)) ∧
      ∀ flag, unsigned = some flag → (flag = true ↔ 0 ≤ this.value ∧ this.value < 2 ^ 64)) := by
  refine ⟨?_, ?_, ?_⟩
  · rw [int64Value, new, bfGetInt64_eq, value_bfSetSi, BitVec.ofInt_toInt]
  · rw [uint64Value, int64Value, newFromUnsigned, bfGetInt64_eq, value_bfSetUi,
      if_neg Bool.false_ne_true, BitVec.ofInt_natCast, BitVec.ofNat_toNat, BitVec.setWidth_eq]
  · rw [← toInt_ofInt_iff, ← toNat_ofInt_iff, ← bfGetInt64_eq]
    constructor
    · intro hconverts
      exact ⟨hconverts.signedLossless, hconverts.unsignedLossless⟩
    · rintro ⟨hsigned, hunsigned⟩
      exact ⟨bfGetInt64_eq this, bfGetInt64_eq this, hsigned, hunsigned⟩

/-- The unsigned reading of minus one leaves a flag that says nothing is lost. -/
theorem minus_one_is_lossless : ¬ Converts (new (-1)) none (some true) := by
  intro hconverts
  have hlossless := (hconverts.unsignedLossless true rfl).mp rfl
  have hvalue : (new (-1)).value = -1 := by
    rw [new, value_bfSetSi]
    decide
  rw [hvalue] at hlossless
  omega

end BigInt

end QuickjsBackend
