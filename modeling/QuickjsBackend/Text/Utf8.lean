import Mathlib.Algebra.GroupWithZero.Nat
import Mathlib.Data.Nat.Bits
import Mathlib.Data.List.GetD

/-! # UTF-8 of the engine

`unicode_from_utf8` and `unicode_to_utf8` know sequences of up to six bytes. On scalar
values they agree with UTF-8.
-/

namespace QuickjsBackend

/-- The number of bytes that follow a first byte that is no ASCII character. -/
def utf8Following (c : Nat) : Option Nat :=
  if c < 0xc0 then none
  else if c < 0xe0 then some 1
  else if c < 0xf0 then some 2
  else if c < 0xf8 then some 3
  else if c < 0xfc then some 4
  else if c < 0xfe then some 5
  else none

def utf8MinCode : List Nat := [0x80, 0x800, 0x10000, 0x00200000, 0x04000000]

def utf8FirstCodeMask : List Nat := [0x1f, 0xf, 0x7, 0x3, 0x1]

/-- The loop over the following bytes, with the code so far. -/
def readFollowing : Nat → Nat → List UInt8 → Option (Nat × List UInt8)
  | 0, c, p => some (c, p)
  | _ + 1, _, [] => none
  | l + 1, c, b :: p =>
      if b.toNat < 0x80 ∨ 0xc0 ≤ b.toNat then none
      else readFollowing l ((c <<< 6) ||| (b.toNat &&& 0x3f)) p

/-- `unicode_from_utf8` on the bytes up to the end of the buffer: the code and where the
next character starts. -/
def unicodeFromUtf8 : List UInt8 → Option (Nat × List UInt8)
  | [] => none
  | first :: p =>
      let c := first.toNat
      if c < 0x80 then some (c, p)
      else
        match utf8Following c with
        | none => none
        | some l =>
            if p.length < l then none
            else
              match readFollowing l (c &&& utf8FirstCodeMask.getD (l - 1) 0) p with
              | none => none
              | some (c, next) => if c < utf8MinCode.getD (l - 1) 0 then none else some (c, next)

/-- Six bits of the code, as a byte that follows the first. -/
def followingByte (c shift : Nat) : UInt8 := UInt8.ofNat (((c >>> shift) &&& 0x3f) ||| 0x80)

/-- `unicode_to_utf8`. -/
def unicodeToUtf8 (c : Nat) : List UInt8 :=
  if c < 0x80 then [UInt8.ofNat c]
  else if c < 0x800 then [UInt8.ofNat ((c >>> 6) ||| 0xc0), followingByte c 0]
  else if c < 0x10000 then [UInt8.ofNat ((c >>> 12) ||| 0xe0), followingByte c 6, followingByte c 0]
  else if c < 0x00200000 then
    [UInt8.ofNat ((c >>> 18) ||| 0xf0), followingByte c 12, followingByte c 6, followingByte c 0]
  else if c < 0x04000000 then
    [UInt8.ofNat ((c >>> 24) ||| 0xf8), followingByte c 18, followingByte c 12, followingByte c 6,
      followingByte c 0]
  else if c < 0x80000000 then
    [UInt8.ofNat ((c >>> 30) ||| 0xfc), followingByte c 24, followingByte c 18, followingByte c 12,
      followingByte c 6, followingByte c 0]
  else []

theorem or_mul_two_pow {low width : Nat} (high : Nat) (hlow : low < 2 ^ width) :
    low ||| 2 ^ width * high = 2 ^ width * high + low := by
  rw [Nat.or_comm, Nat.two_pow_add_eq_or_of_lt hlow]

/-- A byte that follows has 2 fixed bits and 6 of the code. -/
theorem followingByte_eq (c shift : Nat) :
    followingByte c shift = UInt8.ofNat (0x80 + c / 2 ^ shift % 0x40) := by
  have hand : (c >>> shift) &&& 0x3f = c / 2 ^ shift % 0x40 := by
    rw [Nat.shiftRight_eq_div_pow]
    exact Nat.and_two_pow_sub_one_eq_mod _ 6
  rw [followingByte, hand]
  exact congrArg UInt8.ofNat (@or_mul_two_pow _ 6 2 (Nat.mod_lt _ (by decide)))

theorem firstByte_eq {c shift width : Nat} (high : Nat) (hlow : c / 2 ^ shift < 2 ^ width) :
    (c >>> shift) ||| 2 ^ width * high = 2 ^ width * high + c / 2 ^ shift := by
  rw [Nat.shiftRight_eq_div_pow, or_mul_two_pow high hlow]

theorem toNat_lt_of_char (c : Char) : c.toNat < 0x110000 := by
  have hvalid := c.valid
  simp only [UInt32.isValidChar, Nat.isValidChar] at hvalid
  change c.val.toNat < _
  omega

/-- On scalar values the engine writes UTF-8. -/
theorem unicodeToUtf8_char (c : Char) : unicodeToUtf8 c.toNat = String.utf8EncodeChar c := by
  have hlt := toNat_lt_of_char c
  change unicodeToUtf8 c.val.toNat = _
  change c.val.toNat < 0x110000 at hlt
  unfold String.utf8EncodeChar
  generalize c.val.toNat = v at hlt
  have h6 : v / 2 ^ 6 = v / 64 := rfl
  have h12 : v / 2 ^ 12 = v / 4096 := rfl
  simp only [unicodeToUtf8, followingByte_eq, Nat.pow_zero, Nat.div_one, h6, h12, Nat.add_comm 0x80]
  by_cases hone : v < 0x80
  · rw [if_pos hone, if_pos (show v ≤ 0x7f by omega)]
  rw [if_neg hone, if_neg (show ¬ v ≤ 0x7f by omega)]
  by_cases htwo : v < 0x800
  · have hfirst : (v >>> 6) ||| 0xc0 = 0xc0 + v / 2 ^ 6 :=
      @firstByte_eq v 6 5 6 (by omega)
    have hsame : v / 64 % 0x20 + 0xc0 = 0xc0 + v / 2 ^ 6 := by omega
    rw [if_pos htwo, if_pos (show v ≤ 0x7ff by omega), hsame, ← hfirst]
  rw [if_neg htwo, if_neg (show ¬ v ≤ 0x7ff by omega)]
  by_cases hthree : v < 0x10000
  · have hfirst : (v >>> 12) ||| 0xe0 = 0xe0 + v / 2 ^ 12 :=
      @firstByte_eq v 12 4 14 (by omega)
    have hsame : v / 4096 % 0x10 + 0xe0 = 0xe0 + v / 2 ^ 12 := by omega
    rw [if_pos hthree, if_pos (show v ≤ 0xffff by omega), hsame, ← hfirst]
  have hfirst : (v >>> 18) ||| 0xf0 = 0xf0 + v / 2 ^ 18 :=
    @firstByte_eq v 18 3 30 (by omega)
  have hsame : v / 262144 % 0x08 + 0xf0 = 0xf0 + v / 2 ^ 18 := by omega
  rw [if_neg hthree, if_neg (show ¬ v ≤ 0xffff by omega), if_pos (show v < 0x200000 by omega), hsame,
    ← hfirst]

theorem toNat_ofNat_byte {b : Nat} (hb : b < 256) : (UInt8.ofNat b).toNat = b := by
  rw [UInt8.toNat_ofNat', Nat.mod_eq_of_lt hb]

/-- A byte that follows adds its six bits. -/
theorem readFollowing_byte (l c x : Nat) (p : List UInt8) :
    readFollowing (l + 1) c (UInt8.ofNat (x % 0x40 + 0x80) :: p) =
      readFollowing l (2 ^ 6 * c + x % 0x40) p := by
  have hx : x % 0x40 < 2 ^ 6 := Nat.mod_lt _ (by decide)
  have hbyte := toNat_ofNat_byte (b := x % 0x40 + 0x80) (by omega)
  have hand : (x % 0x40 + 0x80) &&& 0x3f = x % 0x40 := by
    rw [show 0x3f = 2 ^ 6 - 1 from rfl, Nat.and_two_pow_sub_one_eq_mod]
    omega
  rw [readFollowing, hbyte, if_neg (by omega), hand, Nat.shiftLeft_eq, Nat.mul_comm c,
    ← Nat.two_pow_add_eq_or_of_lt hx]

/-- A sequence of more than one byte, from what its first byte says. -/
theorem unicodeFromUtf8_eq {first l code : Nat} {p : List UInt8} (hfirst : first < 256)
    (hfollowing : utf8Following first = some l)
    (hcode : first &&& utf8FirstCodeMask.getD (l - 1) 0 = code) (hlength : l ≤ p.length) :
    unicodeFromUtf8 (UInt8.ofNat first :: p) =
      match readFollowing l code p with
      | none => none
      | some (c, next) => if c < utf8MinCode.getD (l - 1) 0 then none else some (c, next) := by
  have hascii : ¬ first < 0x80 := by
    intro hlt
    rw [utf8Following, if_pos (by omega)] at hfollowing
    cases hfollowing
  simp only [unicodeFromUtf8, toNat_ofNat_byte hfirst, if_neg hascii, hfollowing, hcode,
    if_neg (Nat.not_lt.mpr hlength)]

/-- On UTF-8 the engine reads the scalar value. -/
theorem unicodeFromUtf8_char (c : Char) (rest : List UInt8) :
    unicodeFromUtf8 (String.utf8EncodeChar c ++ rest) = some (c.toNat, rest) := by
  have hlt := toNat_lt_of_char c
  change c.val.toNat < 0x110000 at hlt
  change _ = some (c.val.toNat, rest)
  unfold String.utf8EncodeChar
  generalize c.val.toNat = v at hlt
  by_cases hone : v < 0x80
  · have hbyte := @toNat_ofNat_byte v (by omega)
    simp only [if_pos (show v ≤ 0x7f by omega), List.singleton_append, unicodeFromUtf8, hbyte]
    rw [if_pos hone]
  simp only [if_neg (show ¬ v ≤ 0x7f by omega)]
  by_cases htwo : v < 0x800
  · have hfollowing : utf8Following (v / 64 % 0x20 + 0xc0) = some 1 := by
      rw [utf8Following, if_neg (by omega), if_pos (by omega)]
    have hand : (v / 64 % 0x20 + 0xc0) &&& 0x1f = v / 64 := by
      rw [show 0x1f = 2 ^ 5 - 1 from rfl, Nat.and_two_pow_sub_one_eq_mod]
      omega
    have hcode : 2 ^ 6 * (v / 64) + v % 0x40 = v := by omega
    simp only [if_pos (show v ≤ 0x7ff by omega), List.cons_append, List.nil_append]
    rw [unicodeFromUtf8_eq (by omega) hfollowing hand (by simp), readFollowing_byte, hcode,
      readFollowing]
    exact if_neg hone
  simp only [if_neg (show ¬ v ≤ 0x7ff by omega)]
  by_cases hthree : v < 0x10000
  · have hfollowing : utf8Following (v / 4096 % 0x10 + 0xe0) = some 2 := by
      rw [utf8Following, if_neg (by omega), if_neg (by omega), if_pos (by omega)]
    have hand : (v / 4096 % 0x10 + 0xe0) &&& 0xf = v / 4096 := by
      rw [show 0xf = 2 ^ 4 - 1 from rfl, Nat.and_two_pow_sub_one_eq_mod]
      omega
    have hcode : 2 ^ 6 * (2 ^ 6 * (v / 4096) + v / 64 % 0x40) + v % 0x40 = v := by omega
    simp only [if_pos (show v ≤ 0xffff by omega), List.cons_append, List.nil_append]
    rw [unicodeFromUtf8_eq (by omega) hfollowing hand (by simp), readFollowing_byte,
      readFollowing_byte,
      hcode, readFollowing]
    exact if_neg htwo
  · have hfollowing : utf8Following (v / 262144 % 0x08 + 0xf0) = some 3 := by
      rw [utf8Following, if_neg (by omega), if_neg (by omega), if_neg (by omega), if_pos (by omega)]
    have hand : (v / 262144 % 0x08 + 0xf0) &&& 0x7 = v / 262144 := by
      rw [show 0x7 = 2 ^ 3 - 1 from rfl, Nat.and_two_pow_sub_one_eq_mod]
      omega
    have hcode : 2 ^ 6 * (2 ^ 6 * (2 ^ 6 * (v / 262144) + v / 4096 % 0x40) + v / 64 % 0x40) +
        v % 0x40 = v := by omega
    simp only [if_neg (show ¬ v ≤ 0xffff by omega), List.cons_append, List.nil_append]
    rw [unicodeFromUtf8_eq (by omega) hfollowing hand (by simp), readFollowing_byte,
      readFollowing_byte,
      readFollowing_byte, hcode, readFollowing]
    exact if_neg hthree

end QuickjsBackend
