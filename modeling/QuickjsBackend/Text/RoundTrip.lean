import QuickjsBackend.Foundation.Run
import QuickjsBackend.Text.StringBuffer
import QuickjsBackend.Text.Utf8

/-! # UTF-8 in and out of strings

`NewFromUtf8` decodes bytes to 8-bit or 16-bit characters, and `Utf8Length`, `WriteUtf8`
and `Utf8Value` encode them again. What valid UTF-8 comes back as is worked out for every
length.
-/

namespace QuickjsBackend

open StringBuffer

/-- The UTF-8 encoding of some scalar values. -/
def utf8 (chars : List Char) : List UInt8 := chars.flatMap String.utf8EncodeChar

/-- The UTF-16 encoding of a scalar value. -/
def utf16Char (c : Char) : List Nat :=
  if c.toNat < 0x10000 then [c.toNat]
  else [(c.toNat - 0x10000) / 0x400 + 0xd800, (c.toNat - 0x10000) % 0x400 + 0xdc00]

def utf16 (chars : List Char) : List Nat := chars.flatMap utf16Char

/-- Bytes that continue a sequence. -/
def isFollowing (b : UInt8) : Bool := decide (0x80 ≤ b.toNat ∧ b.toNat < 0xc0)

/-- Where `JS_NewStringLen` goes on after an invalid character. -/
def skipInvalid (p : List UInt8) : List UInt8 :=
  match p.dropWhile isFollowing with
  | [] => []
  | _ :: rest => rest.dropWhile isFollowing

section Model

variable (slack : Nat → Nat)

/-- A round of the loop of `JS_NewStringLen`, at a byte that is no ASCII character. -/
def decodeChar (p : List UInt8) (s : StringBuffer) : List UInt8 × StringBuffer :=
  match unicodeFromUtf8 p with
  | some (c, next) =>
      if c < 0x10000 then (next, s.putc16 slack c)
      else if c ≤ 0x10FFFF then
        -- surrogate pair
        (next, (s.putc16 slack (((c - 0x10000) >>> 10) + 0xd800)).putc16 slack
          (((c - 0x10000) &&& 0x3ff) + 0xdc00))
      else (skipInvalid p, s.putc16 slack 0xfffd)
  | none => (skipInvalid p, s.putc16 slack 0xfffd)

/-- The loop of `JS_NewStringLen`. Each round takes a byte or more, so the number of
bytes is fuel enough. -/
def decodeAll : Nat → List UInt8 → StringBuffer → StringBuffer
  | 0, _, s => s
  | _ + 1, [], s => s
  | fuel + 1, first :: p, s =>
      if first.toNat < 128 then decodeAll fuel p (s.putc8 slack first.toNat)
      else decodeAll fuel (decodeChar slack (first :: p) s).1 (decodeChar slack (first :: p) s).2

/-- `JS_NewStringLen`. The size of the buffer is an `int`. -/
def newStringLen (buf : List UInt8) : Except StringFault JSString :=
  let ascii := buf.takeWhile fun b => decide (b.toNat < 128)
  if stringLenMax < ascii.length then .error .stringTooLong
  else if ascii.length = buf.length then .ok ⟨false, buf.map UInt8.toNat⟩
  else if 2 ^ 31 ≤ buf.length then .error .overflow
  else
    let s := (StringBuffer.init buf.length).write8 slack (ascii.map UInt8.toNat)
    (decodeAll slack buf.length (buf.drop ascii.length) s).finish

/-- The bytes of an 8-bit character. -/
def narrowBytes (c : Nat) : List UInt8 :=
  if c < 0x80 then [UInt8.ofNat c]
  else [UInt8.ofNat ((c >>> 6) ||| 0xc0), UInt8.ofNat ((c &&& 0x3f) ||| 0x80)]

/-- The bytes of 16-bit characters; surrogates without their other half stay. -/
def wideBytes : List Nat → List UInt8
  | [] => []
  | [c] => unicodeToUtf8 c
  | c :: c1 :: rest =>
      if c < 0x80 then UInt8.ofNat c :: wideBytes (c1 :: rest)
      else if (0xd800 ≤ c ∧ c < 0xdc00) ∧ 0xdc00 ≤ c1 ∧ c1 < 0xe000 then
        unicodeToUtf8 ((((c &&& 0x3ff) <<< 10) ||| (c1 &&& 0x3ff)) + 0x10000) ++ wideBytes rest
      else unicodeToUtf8 c ++ wideBytes (c1 :: rest)

/-- `JS_ToCStringLen` of a string: the bytes and the length, a field of 31 bits. The
sizes of the allocations are of type `int`. -/
def toCStringLen (str : JSString) : Except StringFault (List UInt8 × Nat) :=
  if str.isWideChar then
    if 2 ^ 31 ≤ str.chars.length * 3 then .error .overflow
    else .ok (wideBytes str.chars, (wideBytes str.chars).length % 2 ^ 31)
  else
    let count := (str.chars.map fun c => c >>> 7).sum
    if count = 0 then .ok (str.chars.map UInt8.ofNat, str.chars.length)
    else if 2 ^ 31 ≤ str.chars.length + count then .error .overflow
    else .ok (str.chars.flatMap narrowBytes, (str.chars.flatMap narrowBytes).length % 2 ^ 31)

/-- `strlen`, of memory that ends somewhere. -/
def strlen (data : List UInt8) : Except StringFault Nat :=
  if 0 ∈ data then .ok (data.takeWhile fun b => decide (b ≠ 0)).length else .error .outOfBounds

/-- `String::NewFromUtf8`. -/
def newFromUtf8 (data : List UInt8) (length : Int) : Except StringFault JSString := do
  let len ← if 0 < length then .ok length.toNat else strlen data
  if data.length < len then .error .outOfBounds else newStringLen slack (data.take len)

/-- The cast of a size to `int`. -/
def intOfSize (len : Nat) : Int := (BitVec.ofNat 32 len).toInt

/-- `String::Utf8Length`. -/
def utf8Length (str : JSString) : Except StringFault Int := do
  let (_, len) ← toCStringLen str
  return intOfSize len

/-- `String::WriteUtf8`, with what is written. -/
def writeUtf8 (str : JSString) : Except StringFault (List UInt8 × Int) := do
  let (bytes, len) ← toCStringLen str
  return (bytes.take len, intOfSize len)

/-- `String::Utf8Value`, with its length. -/
def utf8Value (str : JSString) : Except StringFault (List UInt8 × Int) := do
  let (bytes, len) ← toCStringLen str
  return (bytes, intOfSize len)

/-- The bytes come back from the string that is made of the data. -/
def RoundTrips (data : List UInt8) (length : Int) (bytes : List UInt8) : Prop :=
  ∃ str, newFromUtf8 slack data length = .ok str ∧ utf8Length str = .ok bytes.length ∧
    writeUtf8 str = .ok (bytes, bytes.length) ∧ utf8Value str = .ok (bytes, bytes.length)

end Model

/-- How some bytes are passed: with their number, an `int`, or with `-1` and a NUL behind
them, and more data after that. -/
inductive Passes (bytes : List UInt8) : List UInt8 → Int → Prop
  | counted (rest : List UInt8) (hint : bytes.length < 2 ^ 31) :
      Passes bytes (bytes ++ rest) bytes.length
  | terminated (rest : List UInt8) (hnul : 0 ∉ bytes) : Passes bytes (bytes ++ 0 :: rest) (-1)

/-- The ASCII characters that a text starts with. -/
def asciiPrefix (chars : List Char) : List Char := chars.takeWhile fun c => decide (c.toNat < 128)

/-- The sizes that strings and the buffers for them can have. -/
structure Representable (chars : List Char) : Prop where
  length : (utf8 chars).length < 2 ^ 31
  ascii : (asciiPrefix chars).length ≤ stringLenMax
  wide : (∃ c ∈ chars, 0x100 ≤ c.toNat) →
    (utf8 chars).length < 2 ^ 30 ∧ (utf16 chars).length * 3 < 2 ^ 31

variable {chars : List Char} {c : Char} {slack : Nat → Nat} {s : StringBuffer}

theorem utf8_cons (c : Char) (chars : List Char) :
    utf8 (c :: chars) = String.utf8EncodeChar c ++ utf8 chars := List.flatMap_cons

theorem utf16_cons (c : Char) (chars : List Char) :
    utf16 (c :: chars) = utf16Char c ++ utf16 chars :=
  List.flatMap_cons

theorem utf16_append (chars more : List Char) : utf16 (chars ++ more) = utf16 chars ++ utf16 more :=
  List.flatMap_append

theorem utf8_append (chars more : List Char) : utf8 (chars ++ more) = utf8 chars ++ utf8 more :=
  List.flatMap_append

/-- An ASCII character is one byte. -/
theorem utf8EncodeChar_ascii (hc : c.toNat < 128) :
    String.utf8EncodeChar c = [UInt8.ofNat c.toNat] :=
  if_pos (show c.val.toNat ≤ 0x7f by change c.val.toNat < 128 at hc; omega)

/-- Any other one starts with a byte that is no ASCII character. -/
theorem utf8EncodeChar_cons (hc : 128 ≤ c.toNat) :
    ∃ first p, String.utf8EncodeChar c = first :: p ∧ 128 ≤ first.toNat ∧ p ≠ [] := by
  have hlt := toNat_lt_of_char c
  change 128 ≤ c.val.toNat at hc
  change c.val.toNat < _ at hlt
  unfold String.utf8EncodeChar
  generalize c.val.toNat = v at hc hlt
  simp only
  rw [if_neg (by omega)]
  split
  next => exact ⟨_, _, rfl, by rw [toNat_ofNat_byte (by omega)]; omega, by simp⟩
  next =>
    split
    next => exact ⟨_, _, rfl, by rw [toNat_ofNat_byte (by omega)]; omega, by simp⟩
    next => exact ⟨_, _, rfl, by rw [toNat_ofNat_byte (by omega)]; omega, by simp⟩

theorem utf16Char_ascii (hc : c.toNat < 0x10000) : utf16Char c = [c.toNat] := if_pos hc

/-- The number of bytes of a scalar value. -/
theorem length_utf8EncodeChar_eq (c : Char) : (String.utf8EncodeChar c).length =
    if c.toNat < 0x80 then 1 else if c.toNat < 0x800 then 2 else if c.toNat < 0x10000 then 3 else 4 := by
  change _ = if c.val.toNat < 0x80 then 1 else if c.val.toNat < 0x800 then 2
    else if c.val.toNat < 0x10000 then 3 else 4
  unfold String.utf8EncodeChar
  generalize c.val.toNat = v
  simp only
  by_cases hone : v < 0x80
  · rw [if_pos hone, if_pos (show v ≤ 0x7f by omega)]
    rfl
  rw [if_neg hone, if_neg (show ¬ v ≤ 0x7f by omega)]
  by_cases htwo : v < 0x800
  · rw [if_pos htwo, if_pos (show v ≤ 0x7ff by omega)]
    rfl
  rw [if_neg htwo, if_neg (show ¬ v ≤ 0x7ff by omega)]
  by_cases hthree : v < 0x10000
  · rw [if_pos hthree, if_pos (show v ≤ 0xffff by omega)]
    rfl
  rw [if_neg hthree, if_neg (show ¬ v ≤ 0xffff by omega)]
  rfl

theorem utf16Char_length_le (c : Char) : (utf16Char c).length ≤
    (String.utf8EncodeChar c).length := by
  rw [length_utf8EncodeChar_eq, utf16Char]
  by_cases hc : c.toNat < 0x10000
  · rw [if_pos hc, List.length_singleton]
    split
    next => exact Nat.le_refl _
    next => split <;> omega
  · rw [if_neg hc, if_neg (by omega), if_neg (by omega), if_neg hc]
    exact Nat.le_of_ble_eq_true rfl

theorem length_utf16_le (chars : List Char) : (utf16 chars).length ≤ (utf8 chars).length := by
  induction chars with
  | nil => exact Nat.le_refl _
  | cons c rest ih =>
      have hc := utf16Char_length_le c
      rw [utf16_cons, utf8_cons, List.length_append, List.length_append]
      omega

theorem utf16_lt (chars : List Char) : ∀ unit ∈ utf16 chars, unit < 2 ^ 16 := by
  intro unit hmem
  obtain ⟨c, -, hunit⟩ := List.mem_flatMap.mp hmem
  have hlt := toNat_lt_of_char c
  unfold utf16Char at hunit
  split at hunit
  next hc =>
    rw [List.mem_singleton.mp hunit]
    exact hc
  next hc =>
    simp only [List.mem_cons, List.not_mem_nil, or_false] at hunit
    omega

/-- The wide characters are those of the scalar values from `0x100` on. -/
theorem isWide_utf16_iff (chars : List Char) : IsWide (utf16 chars) ↔
    ∃ c ∈ chars, 0x100 ≤ c.toNat := by
  constructor
  · rintro ⟨unit, hmem, hwide⟩
    obtain ⟨c, hc, hunit⟩ := List.mem_flatMap.mp hmem
    refine ⟨c, hc, ?_⟩
    unfold utf16Char at hunit
    split at hunit
    next => rwa [List.mem_singleton.mp hunit] at hwide
    next hlarge => omega
  · rintro ⟨c, hc, hwide⟩
    by_cases hsmall : c.toNat < 0x10000
    · exact ⟨c.toNat, List.mem_flatMap.mpr ⟨c, hc, by rw [utf16Char_ascii hsmall]; exact
        List.mem_cons_self⟩,
        hwide⟩
    · refine ⟨_, List.mem_flatMap.mpr ⟨c, hc, ?_⟩, Nat.le_trans (by decide) (Nat.le_add_left 0xd800
        ((c.toNat - 0x10000) / 0x400))⟩
      rw [utf16Char, if_neg hsmall]
      exact List.mem_cons_self

/-- A round of the loop at a scalar value. -/
theorem decodeChar_utf8 (slack : Nat → Nat) (c : Char) (rest : List UInt8) (s : StringBuffer) :
    decodeChar slack (String.utf8EncodeChar c ++ rest) s =
      (rest, s.putAll slack (utf16Char c)) := by
  have hlt := toNat_lt_of_char c
  rw [decodeChar, unicodeFromUtf8_char]
  simp only
  by_cases hsmall : c.toNat < 0x10000
  · rw [if_pos hsmall, utf16Char_ascii hsmall]
    rfl
  · have hhigh : (c.toNat - 0x10000) >>> 10 = (c.toNat - 0x10000) / 0x400 :=
      Nat.shiftRight_eq_div_pow _ 10
    have hlow : (c.toNat - 0x10000) &&& 0x3ff = (c.toNat - 0x10000) % 0x400 :=
      Nat.and_two_pow_sub_one_eq_mod _ 10
    rw [if_neg hsmall, if_pos (by omega), hhigh, hlow, utf16Char, if_neg hsmall]
    rfl

/-- The loop adds the characters that the bytes stand for. -/
theorem decodeAll_utf8 {fuel : Nat} (hfuel : (utf8 chars).length ≤ fuel)
    (hready : s.Ready (utf16 chars).length) :
    decodeAll slack fuel (utf8 chars) s = s.putAll slack (utf16 chars) := by
  induction chars generalizing fuel s with
  | nil => cases fuel <;> rfl
  | cons c rest ih =>
      rw [utf8_cons, List.length_append] at hfuel
      rw [utf16_cons, List.length_append] at hready
      rw [utf8_cons, utf16_cons, putAll_append]
      have hnext := hready.putAll slack
      by_cases hascii : c.toNat < 128
      · have hunits : utf16Char c = [c.toNat] := utf16Char_ascii (by omega)
        have hbyte := @toNat_ofNat_byte c.toNat (by omega)
        rw [utf8EncodeChar_ascii hascii, List.length_singleton] at hfuel
        rw [hunits, List.length_singleton, Nat.add_comm] at hready
        rw [hunits] at hnext
        obtain ⟨fuel, rfl⟩ : ∃ less, fuel = less + 1 := ⟨fuel - 1, by omega⟩
        rw [utf8EncodeChar_ascii hascii, hunits, List.singleton_append, decodeAll, hbyte,
          if_pos hascii,
          hready.putc8_eq (by omega)]
        exact ih (by omega) hnext
      · obtain ⟨first, p, hbytes, hfirst, -⟩ := utf8EncodeChar_cons (Nat.not_lt.mp hascii)
        have hdecode := decodeChar_utf8 slack c (utf8 rest) s
        rw [hbytes, List.length_cons] at hfuel
        obtain ⟨fuel, rfl⟩ : ∃ less, fuel = less + 1 := ⟨fuel - 1, by omega⟩
        rw [hbytes, List.cons_append] at hdecode
        rw [hbytes, List.cons_append, decodeAll, if_neg (Nat.not_lt.mpr hfirst), hdecode]
        exact ih (by omega) hnext

theorem takeWhile_utf8 (chars : List Char) :
    (utf8 chars).takeWhile (fun b => decide (b.toNat < 128)) = utf8 (asciiPrefix chars) := by
  induction chars with
  | nil => rfl
  | cons c rest ih =>
      rw [utf8_cons, asciiPrefix]
      by_cases hascii : c.toNat < 128
      · have hbyte := @toNat_ofNat_byte c.toNat (by omega)
        have hrest : (utf8 rest).takeWhile (fun b => decide (b.toNat < 128)) =
            utf8 (rest.takeWhile fun c => decide (c.toNat < 128)) := ih
        simp only [utf8EncodeChar_ascii hascii, List.singleton_append, List.takeWhile_cons, hbyte, hascii,
          decide_true, if_true, utf8_cons, hrest]
      · obtain ⟨first, p, hbytes, hfirst, -⟩ := utf8EncodeChar_cons (Nat.not_lt.mp hascii)
        rw [List.takeWhile_cons_of_neg (by simpa using hascii), hbytes, List.cons_append,
          List.takeWhile_cons_of_neg (by simpa using hfirst)]
        rfl

/-- ASCII characters are their own bytes. -/
theorem utf8_ascii (hascii : ∀ c ∈ chars, c.toNat < 128) :
    (utf8 chars).map UInt8.toNat = utf16 chars ∧ (utf8 chars).length = chars.length := by
  induction chars with
  | nil => exact ⟨rfl, rfl⟩
  | cons c rest ih =>
      have hc := hascii c List.mem_cons_self
      obtain ⟨hmap, hlength⟩ := ih fun d hd => hascii d (List.mem_cons_of_mem _ hd)
      have hbyte := @toNat_ofNat_byte c.toNat (by omega)
      rw [utf8_cons, utf16_cons, utf8EncodeChar_ascii hc, utf16Char_ascii (by omega),
        List.map_append,
        List.map_singleton, hbyte, hmap, List.length_append, List.length_singleton, hlength,
        List.length_cons, Nat.add_comm]
      exact ⟨rfl, rfl⟩

theorem asciiPrefix_ascii (chars : List Char) : ∀ c ∈ asciiPrefix chars, c.toNat < 128 := by
  intro c hmem
  have htaken := List.mem_takeWhile_imp (show c ∈ chars.takeWhile fun c => decide (c.toNat < 128) from hmem)
  exact of_decide_eq_true htaken

/-- The string that valid UTF-8 becomes, or what stands in the way of it. -/
theorem newStringLen_utf8 (hlength : (utf8 chars).length < 2 ^ 31) :
    newStringLen slack (utf8 chars) =
      if stringLenMax < (asciiPrefix chars).length then .error .stringTooLong
      else if IsWide (utf16 chars) then
        if 2 ^ 31 ≤ (utf8 chars).length <<< 1 then .error .overflow else .ok ⟨true, utf16 chars⟩
      else .ok ⟨false, utf16 chars⟩ := by
  obtain ⟨post, hsplit⟩ : ∃ post, chars = asciiPrefix chars ++ post :=
    ⟨_, List.takeWhile_append_dropWhile.symm⟩
  have hpre := asciiPrefix_ascii chars
  obtain ⟨hmap, hprefix⟩ := utf8_ascii hpre
  have hunits := length_utf16_le chars
  unfold newStringLen
  simp only [takeWhile_utf8, hprefix]
  generalize asciiPrefix chars = pre at hsplit hpre hmap hprefix
  by_cases hlong : stringLenMax < pre.length
  · rw [if_pos hlong, if_pos hlong]
  rw [if_neg hlong, if_neg hlong]
  have hnarrow : ∀ unit ∈ utf16 pre, unit < 0x100 := by
    intro unit hmem
    by_contra hwide
    obtain ⟨c, hc, hlarge⟩ := (isWide_utf16_iff pre).mp ⟨unit, hmem, Nat.not_lt.mp hwide⟩
    have hsmall := hpre c hc
    omega
  have hwide : IsWide (utf16 chars) ↔ IsWide (utf16 post) := by
    rw [hsplit, utf16_append]
    constructor
    · rintro ⟨unit, hmem, hlarge⟩
      rcases List.mem_append.mp hmem with hmem | hmem
      · exact absurd (hnarrow unit hmem) (Nat.not_lt.mpr hlarge)
      · exact ⟨unit, hmem, hlarge⟩
    · rintro ⟨unit, hmem, hlarge⟩
      exact ⟨unit, List.mem_append_right _ hmem, hlarge⟩
  subst hsplit
  rw [utf8_append, List.length_append, hprefix] at hlength ⊢
  rw [utf16_append, utf8_append, List.length_append, List.length_append, hprefix] at hunits
  by_cases hpost : utf8 post = []
  · have hnone : utf16 post = [] := by
      have hle := length_utf16_le post
      rw [hpost] at hle
      exact List.eq_nil_of_length_eq_zero (Nat.le_zero.mp hle)
    have hthin : ¬ IsWide (utf16 (pre ++ post)) := by
      rw [hwide, hnone]
      rintro ⟨_, hmem, -⟩
      cases hmem
    rw [if_neg hthin, hpost, List.append_nil, List.length_nil, Nat.add_zero, if_pos rfl, hmap,
      utf16_append, hnone, List.append_nil]
  · have hpos := List.length_pos_iff.mpr hpost
    have hdrop : (utf8 pre ++ utf8 post).drop pre.length = utf8 post := List.drop_left' hprefix
    have hroom : (utf16 pre).length + (utf16 post).length ≤ pre.length + (utf8 post).length := hunits
    have hlengths : (utf16 pre).length = pre.length := by rw [← hmap, List.length_map, hprefix]
    rw [if_neg (by omega), if_neg (Nat.not_le.mpr hlength), hdrop, hmap]
    have hwrite : (StringBuffer.init (pre.length + (utf8 post).length)).write8 slack (utf16 pre) =
        ⟨pre.length + (utf8 post).length, false, utf16 pre, none⟩ := by
      refine write8_eq ⟨rfl, ?_⟩
      change 0 + (utf16 pre).length ≤ pre.length + (utf8 post).length
      omega
    have hholds : StringBuffer.Holds ⟨pre.length + (utf8 post).length, false, utf16 pre, none⟩
        (utf16 post).length := ⟨rfl, hroom⟩
    rw [hwrite, decodeAll_utf8 (by omega) (Or.inl hholds)]
    by_cases hlarge : IsWide (utf16 post)
    · rw [if_pos (hwide.mpr hlarge), putAll_of_wide hholds (utf16_lt post) rfl hlarge, utf16_append]
    · have hfits : ∀ unit ∈ utf16 post, unit < 0x100 := fun unit hmem =>
        Nat.not_le.mp fun h => hlarge ⟨unit, hmem, h⟩
      rw [if_neg (fun h => hlarge (hwide.mp h)), putAll_of_fits hholds (utf16_lt post)
        (Or.inr hfits),
        utf16_append]
      rfl

/-- The bytes of an 8-bit character are its UTF-8 encoding. -/
theorem narrowBytes_char (hc : c.toNat < 0x100) : narrowBytes c.toNat =
    String.utf8EncodeChar c := by
  rw [← unicodeToUtf8_char, narrowBytes, unicodeToUtf8]
  split
  next => rfl
  next =>
    rw [if_pos (by omega)]
    rfl

/-- The high bits of 8-bit characters count the bytes beyond one for each. -/
theorem length_add_count (hnarrow : ∀ c ∈ chars, c.toNat < 0x100) :
    (utf16 chars).length + ((utf16 chars).map fun c => c >>> 7).sum = (utf8 chars).length := by
  induction chars with
  | nil => rfl
  | cons c rest ih =>
      have hc := hnarrow c List.mem_cons_self
      have hrest := ih fun d hd => hnarrow d (List.mem_cons_of_mem _ hd)
      have hbytes := length_utf8EncodeChar_eq c
      rw [utf16_cons, utf8_cons, utf16Char_ascii (by omega), List.length_append, List.length_append,
        List.map_append, List.sum_append, List.map_singleton, List.sum_singleton,
          List.length_singleton,
        Nat.shiftRight_eq_div_pow]
      split at hbytes
      next => omega
      next =>
        rw [if_pos (by omega)] at hbytes
        omega

theorem flatMap_narrowBytes (hnarrow : ∀ c ∈ chars, c.toNat < 0x100) :
    (utf16 chars).flatMap narrowBytes = utf8 chars := by
  induction chars with
  | nil => rfl
  | cons c rest ih =>
      have hc := hnarrow c List.mem_cons_self
      rw [utf16_cons, utf8_cons, utf16Char_ascii (by omega), List.flatMap_append,
        List.flatMap_singleton,
        narrowBytes_char hc, ih fun d hd => hnarrow d (List.mem_cons_of_mem _ hd)]

/-- Without high bits the characters are the bytes. -/
theorem map_ofNat_utf16 (hnarrow : ∀ c ∈ chars, c.toNat < 0x100)
    (hzero : ((utf16 chars).map fun c => c >>> 7).sum = 0) :
    (utf16 chars).map UInt8.ofNat = utf8 chars := by
  induction chars with
  | nil => rfl
  | cons c rest ih =>
      have hc := hnarrow c List.mem_cons_self
      rw [utf16_cons, utf16Char_ascii (by omega), List.map_append, List.sum_append,
        List.map_singleton,
        List.sum_singleton, Nat.shiftRight_eq_div_pow] at hzero
      rw [utf16_cons, utf8_cons, utf16Char_ascii (by omega), utf8EncodeChar_ascii (by omega),
        List.map_append, List.map_singleton,
        ih (fun d hd => hnarrow d (List.mem_cons_of_mem _ hd)) (by omega)]

/-- The bytes of an 8-bit string of scalar values. -/
theorem toCStringLen_narrow (hnarrow : ∀ c ∈ chars, c.toNat < 0x100)
    (hlength : (utf8 chars).length < 2 ^ 31) :
    toCStringLen ⟨false, utf16 chars⟩ = .ok (utf8 chars, (utf8 chars).length) := by
  have hcount := length_add_count hnarrow
  have hbytes := flatMap_narrowBytes hnarrow
  simp only [toCStringLen, Bool.false_eq_true, if_false, hbytes, hcount, Nat.mod_eq_of_lt hlength]
  split
  next hzero =>
    rw [hzero, Nat.add_zero] at hcount
    rw [map_ofNat_utf16 hnarrow hzero, hcount]
  next => rw [if_neg (Nat.not_le.mpr hlength)]

/-- A character that is no high surrogate is written by itself. -/
theorem wideBytes_cons {unit : Nat} (hunit : unit < 0xd800 ∨ 0xdc00 ≤ unit) (rest : List Nat) :
    wideBytes (unit :: rest) = unicodeToUtf8 unit ++ wideBytes rest := by
  cases rest with
  | nil => simp [wideBytes]
  | cons next rest =>
      rw [wideBytes]
      split
      next hascii =>
        rw [unicodeToUtf8, if_pos hascii]
        rfl
      next => rw [if_neg (by omega)]

/-- Two halves of a pair are written as one. -/
theorem wideBytes_pair {x : Nat} (hx : x < 0x100000) (rest : List Nat) :
    wideBytes ((x / 0x400 + 0xd800) :: (x % 0x400 + 0xdc00) :: rest) =
      unicodeToUtf8 (x + 0x10000) ++ wideBytes rest := by
  have hhigh : (x / 0x400 + 0xd800) &&& 0x3ff = x / 0x400 := by
    rw [show 0x3ff = 2 ^ 10 - 1 from rfl, Nat.and_two_pow_sub_one_eq_mod]
    omega
  have hlow : (x % 0x400 + 0xdc00) &&& 0x3ff = x % 0x400 := by
    rw [show 0x3ff = 2 ^ 10 - 1 from rfl, Nat.and_two_pow_sub_one_eq_mod]
    omega
  have hor : (x / 0x400) <<< 10 ||| x % 0x400 = x := by
    rw [Nat.shiftLeft_eq, Nat.mul_comm, ← Nat.two_pow_add_eq_or_of_lt (Nat.mod_lt x (by decide))]
    omega
  rw [wideBytes, if_neg (by omega), if_pos (by omega), hhigh, hlow, hor]

theorem not_surrogate (c : Char) : c.toNat < 0xd800 ∨ 0xdfff < c.toNat := by
  have hvalid := c.valid
  simp only [UInt32.isValidChar, Nat.isValidChar] at hvalid
  change c.val.toNat < _ ∨ _ < c.val.toNat
  omega

theorem wideBytes_utf16 (chars : List Char) : wideBytes (utf16 chars) = utf8 chars := by
  induction chars with
  | nil => rfl
  | cons c rest ih =>
      have hlt := toNat_lt_of_char c
      have hproper := not_surrogate c
      rw [utf16_cons, utf8_cons, ← unicodeToUtf8_char, ← ih]
      by_cases hsmall : c.toNat < 0x10000
      · rw [utf16Char_ascii hsmall, List.singleton_append, wideBytes_cons (by omega)]
      · have hsum : c.toNat - 0x10000 + 0x10000 = c.toNat := by omega
        rw [utf16Char, if_neg hsmall, List.cons_append, List.singleton_append,
          wideBytes_pair (by omega), hsum]

theorem toCStringLen_wide (hlength : (utf8 chars).length < 2 ^ 31) :
    toCStringLen ⟨true, utf16 chars⟩ =
      if 2 ^ 31 ≤ (utf16 chars).length * 3 then .error .overflow
      else .ok (utf8 chars, (utf8 chars).length) := by
  simp only [toCStringLen, if_true, wideBytes_utf16, Nat.mod_eq_of_lt hlength]

theorem decodeChar_started (p : List UInt8) (hbounded : s.Bounded) :
    (decodeChar slack p s).2.Started := by
  unfold decodeChar
  split
  next =>
    split
    next => exact hbounded.putc16 slack _
    next =>
      split
      next => exact (hbounded.putc16 slack _).bounded.putc16 slack _
      next => exact hbounded.putc16 slack _
  next => exact hbounded.putc16 slack _

/-- The loop adds a character if there is a byte, whether or not it is valid. -/
theorem decodeAll_started {fuel : Nat} {p : List UInt8} (hbounded : s.Bounded)
    (hstarted : s.Started ∨ fuel ≠ 0 ∧ p ≠ []) : (decodeAll slack fuel p s).Started := by
  induction fuel generalizing p s with
  | zero => exact hstarted.resolve_right fun h => h.1 rfl
  | succ fuel ih =>
      cases p with
      | nil => exact hstarted.resolve_right fun h => h.2 rfl
      | cons first p =>
          rw [decodeAll]
          split
          next =>
            have hnext := hbounded.putc8 slack first.toNat
            exact ih hnext.bounded (Or.inl hnext)
          next =>
            have hnext := @decodeChar_started slack s (first :: p) hbounded
            exact ih hnext.bounded (Or.inl hnext)

/-- Bytes, valid or not, do not become an empty string. -/
theorem newStringLen_ne_nil {buf : List UInt8} {str : JSString} (hbuf : buf ≠ [])
    (hnew : newStringLen slack buf = .ok str) : str.chars ≠ [] ∧ ∀ c ∈ str.chars, c < 2 ^ 16 := by
  have hbytes : ∀ bytes : List UInt8, ∀ c ∈ bytes.map UInt8.toNat, c < 2 ^ 16 := by
    intro bytes c hmem
    obtain ⟨b, -, rfl⟩ := List.mem_map.mp hmem
    exact Nat.lt_of_lt_of_le b.toNat_lt (by decide)
  unfold newStringLen at hnew
  dsimp only at hnew
  split at hnew
  next => cases hnew
  next =>
    split at hnew
    next =>
      cases hnew
      exact ⟨fun hnil => hbuf (List.map_eq_nil_iff.mp hnil), hbytes buf⟩
    next hmore =>
      split at hnew
      next => cases hnew
      next =>
        have hprefix := (@List.takeWhile_prefix _ buf fun b : UInt8 =>
          decide (b.toNat < 128)).length_le
        generalize buf.takeWhile (fun b => decide (b.toNat < 128)) = ascii at hmore hprefix hnew
        have hwrite := @write8_eq slack (StringBuffer.init buf.length) (ascii.map UInt8.toNat)
          ⟨rfl, by simpa [StringBuffer.init] using hprefix⟩
        have hdrop : buf.drop ascii.length ≠ [] := by
          rw [ne_eq, List.drop_eq_nil_iff]
          omega
        have hbounded : ((StringBuffer.init buf.length).write8 slack
          (ascii.map UInt8.toNat)).Bounded := by
          rw [hwrite]
          exact hbytes ascii
        have hstarted := @decodeAll_started slack _ buf.length _ hbounded
          (Or.inr ⟨by simpa using hbuf, hdrop⟩)
        unfold finish at hnew
        split at hnew
        next => cases hnew
        next hnone =>
          cases hnew
          exact ⟨hstarted.started hnone, hstarted.bounded⟩

theorem unicodeToUtf8_ne_nil {code : Nat} (hcode : code < 0x80000000) :
    unicodeToUtf8 code ≠ [] := by
  unfold unicodeToUtf8
  intro hnil
  split at hnil
  next => cases hnil
  next =>
    split at hnil
    next => cases hnil
    next =>
      split at hnil
      next => cases hnil
      next =>
        split at hnil
        next => cases hnil
        next =>
          split at hnil
          next => cases hnil
          next => cases hnil

theorem wideBytes_ne_nil {units : List Nat} (hunits : units ≠ [])
    (hsmall : ∀ c ∈ units, c < 2 ^ 16) :
    wideBytes units ≠ [] := by
  unfold wideBytes
  split
  next => exact absurd rfl hunits
  next c => exact unicodeToUtf8_ne_nil (Nat.lt_trans (hsmall c List.mem_cons_self) (by decide))
  next c c1 rest =>
    split
    next => exact List.cons_ne_nil _ _
    next =>
      split
      next =>
        have hhigh : c &&& 0x3ff < 2 ^ 10 := Nat.lt_of_le_of_lt Nat.and_le_right (by decide)
        have hlow : c1 &&& 0x3ff < 2 ^ 10 := Nat.lt_of_le_of_lt Nat.and_le_right (by decide)
        have hor := Nat.or_lt_two_pow (show (c &&& 0x3ff) <<< 10 < 2 ^ 20 by
          rw [Nat.shiftLeft_eq]
          omega) (Nat.lt_trans hlow (by decide : 2 ^ 10 < 2 ^ 20))
        exact List.append_ne_nil_of_left_ne_nil (unicodeToUtf8_ne_nil (by omega)) _
      next =>
        exact List.append_ne_nil_of_left_ne_nil
          (unicodeToUtf8_ne_nil (Nat.lt_trans (hsmall c List.mem_cons_self) (by decide))) _

/-- A string that is not empty has bytes. -/
theorem toCStringLen_ne_nil {str : JSString} {bytes : List UInt8} {len : Nat}
    (hchars : str.chars ≠ [])
    (hsmall : ∀ c ∈ str.chars, c < 2 ^ 16) (hbytes : toCStringLen str = .ok (bytes, len)) :
    bytes ≠ [] := by
  unfold toCStringLen at hbytes
  dsimp only at hbytes
  split at hbytes
  next =>
    split at hbytes
    next => cases hbytes
    next =>
      cases hbytes
      exact wideBytes_ne_nil hchars hsmall
  next =>
    split at hbytes
    next =>
      cases hbytes
      exact fun hnil => hchars (List.map_eq_nil_iff.mp hnil)
    next =>
      split at hbytes
      next => cases hbytes
      next =>
        cases hbytes
        intro hnil
        obtain ⟨c, rest, hcons⟩ := List.exists_cons_of_ne_nil hchars
        have hnone := List.flatMap_eq_nil_iff.mp hnil c (by rw [hcons]; exact List.mem_cons_self)
        unfold narrowBytes at hnone
        split at hnone <;> cases hnone

/-- The bytes that `NewFromUtf8` decodes are the ones passed, unless their number is zero
and there is no NUL behind them. -/
theorem newFromUtf8_passes {bytes data : List UInt8} {length : Int}
    (hpasses : Passes bytes data length)
    (hzero : length = 0 → data.head? = some 0) :
    newFromUtf8 slack data length = newStringLen slack bytes := by
  cases hpasses with
  | counted rest hint =>
      by_cases hpos : 0 < bytes.length
      · have hnat : ((bytes.length : Nat) : Int).toNat = bytes.length := Int.toNat_natCast _
        have hle : ¬ (bytes ++ rest).length < bytes.length := by
          rw [List.length_append]
          omega
        simp only [newFromUtf8, if_pos (Int.natCast_pos.mpr hpos), bind, Except.bind, hnat, if_neg hle,
          List.take_left]
      · obtain rfl := List.eq_nil_of_length_eq_zero (Nat.eq_zero_of_not_pos hpos)
        obtain ⟨tail, hdata⟩ := List.head?_eq_some_iff.mp (hzero rfl)
        rw [List.nil_append] at hdata ⊢
        subst hdata
        rfl
  | terminated rest hnul =>
      have htake : (bytes ++ 0 :: rest).takeWhile (fun b => decide (b ≠ 0)) = bytes := by
        rw [List.takeWhile_append_of_pos]
        · simp
        · intro b hmem
          exact decide_eq_true fun hb => hnul (hb ▸ hmem)
      have hlen : strlen (bytes ++ 0 :: rest) = .ok bytes.length := by
        rw [strlen, if_pos (by simp), htake]
      have hle : ¬ (bytes ++ 0 :: rest).length < bytes.length := by
        rw [List.length_append]
        omega
      simp only [newFromUtf8, if_neg (show ¬ (0 : Int) < -1 by decide), hlen, bind, Except.bind,
        if_neg hle, List.take_left]

/-- With a length of zero and no NUL behind it, what comes back is not empty. -/
theorem not_roundTrips_zero {data : List UInt8} (hhead : data.head? ≠ some 0) :
    ¬ RoundTrips slack data 0 [] := by
  rintro ⟨str, hnew, -, -, hvalue⟩
  obtain ⟨len, hlen, hnew⟩ := Foundation.bind_eq_ok.mp hnew
  rw [strlen] at hlen
  split at hlen
  next hmem =>
    cases hlen
    obtain ⟨first, rest, rfl⟩ := List.exists_cons_of_ne_nil (List.ne_nil_of_mem hmem)
    have hfirst : first ≠ 0 := by
      rintro rfl
      exact hhead rfl
    dsimp only at hnew
    split at hnew
    next => cases hnew
    next =>
      simp only [List.takeWhile_cons, hfirst, ne_eq, not_false_eq_true, decide_true, if_true,
        List.length_cons, List.take_succ_cons] at hnew
      obtain ⟨hchars, hsmall⟩ := newStringLen_ne_nil (List.cons_ne_nil _ _) hnew
      obtain ⟨⟨bytes, len⟩, hbytes, hpair⟩ := Foundation.bind_eq_ok.mp hvalue
      exact toCStringLen_ne_nil hchars hsmall hbytes (Prod.mk.inj (Except.ok.inj hpair)).1
  next => cases hlen

/-- A string whose bytes are all there gives them back in each way. -/
theorem gives_back {str : JSString} {bytes : List UInt8} (hint : bytes.length < 2 ^ 31)
    (hbytes : toCStringLen str = .ok (bytes, bytes.length)) :
    utf8Length str = .ok bytes.length ∧ writeUtf8 str = .ok (bytes, bytes.length) ∧
      utf8Value str = .ok (bytes, bytes.length) := by
  have hcast : intOfSize bytes.length = bytes.length := by
    have hsmall : (BitVec.ofNat 32 bytes.length).toNat = bytes.length := by
      rw [BitVec.toNat_ofNat]
      omega
    rw [intOfSize, BitVec.toInt_eq_toNat_of_lt (by omega), hsmall]
  simp only [utf8Length, writeUtf8, utf8Value, hbytes, bind, Except.bind, pure, Except.pure, hcast,
    List.take_length]
  exact ⟨trivial, trivial, trivial⟩

/-- Valid UTF-8 comes back from the string that is made of it exactly when a length of
zero has a NUL behind it and all sizes can be represented. -/
theorem roundTrips_iff (chars : List Char) (slack : Nat → Nat) {data : List UInt8} {length : Int}
    (hpasses : Passes (utf8 chars) data length) :
    RoundTrips slack data length (utf8 chars) ↔
      (length = 0 → data.head? = some 0) ∧ Representable chars := by
  constructor
  · intro htrips
    have hzero : length = 0 → data.head? = some 0 := by
      intro hlength
      by_contra hhead
      have hnil : utf8 chars = [] := by
        cases hpasses with
        | counted rest hint => exact List.eq_nil_of_length_eq_zero (Int.natCast_eq_zero.mp hlength)
        | terminated rest hnul => exact absurd hlength (by decide)
      rw [hlength, hnil] at htrips
      exact not_roundTrips_zero hhead htrips
    obtain ⟨str, hnew, hlength, -, -⟩ := htrips
    obtain ⟨⟨bytes, len⟩, hbytes, hcast⟩ := Foundation.bind_eq_ok.mp hlength
    have hint : (utf8 chars).length < 2 ^ 31 := by
      have hbound := (BitVec.ofNat 32 len).isLt
      have htoInt := @BitVec.toInt_lt 32 (BitVec.ofNat 32 len)
      have hsame : intOfSize len = (utf8 chars).length := Except.ok.inj hcast
      rw [intOfSize] at hsame
      omega
    rw [newFromUtf8_passes hpasses hzero, newStringLen_utf8 hint] at hnew
    split at hnew
    next => cases hnew
    next hascii =>
      refine ⟨hzero, hint, Nat.not_lt.mp hascii, fun hwide => ?_⟩
      rw [if_pos ((isWide_utf16_iff chars).mpr hwide)] at hnew
      split at hnew
      next => cases hnew
      next hsize =>
        cases hnew
        rw [toCStringLen_wide hint] at hbytes
        split at hbytes
        next => cases hbytes
        next hunits =>
          rw [Nat.shiftLeft_eq] at hsize
          exact ⟨by omega, Nat.not_le.mp hunits⟩
  · rintro ⟨hzero, hrepresentable⟩
    have hint := hrepresentable.length
    have hnew := @newStringLen_utf8 chars slack hint
    rw [if_neg (Nat.not_lt.mpr hrepresentable.ascii)] at hnew
    unfold RoundTrips
    rw [newFromUtf8_passes hpasses hzero, hnew]
    by_cases hwide : IsWide (utf16 chars)
    · obtain ⟨hsize, hunits⟩ := hrepresentable.wide ((isWide_utf16_iff chars).mp hwide)
      have hbytes := toCStringLen_wide hint
      rw [if_neg (Nat.not_le.mpr hunits)] at hbytes
      rw [if_pos hwide, if_neg (by rw [Nat.shiftLeft_eq]; omega)]
      exact ⟨_, rfl, gives_back hint hbytes⟩
    · have hnarrow : ∀ c ∈ chars, c.toNat < 0x100 := fun c hmem =>
        Nat.not_le.mp fun h => hwide ((isWide_utf16_iff chars).mpr ⟨c, hmem, h⟩)
      rw [if_neg hwide]
      exact ⟨_, rfl, gives_back hint (toCStringLen_narrow hnarrow hint)⟩

/-- Four characters of one to four bytes. -/
theorem roundTrips_four :
    RoundTrips (fun _ => 0) (utf8 ['A', 'é', '€', '𐍈'] ++ [65]) 10 (utf8 ['A', 'é', '€', '𐍈']) ↔
      ((10 : Int) = 0 → (utf8 ['A', 'é', '€', '𐍈'] ++ [65]).head? = some 0) ∧
        Representable ['A', 'é', '€', '𐍈'] :=
  roundTrips_iff ['A', 'é', '€', '𐍈'] (fun _ => 0) (.counted [65] (by decide))

/-- No bytes out of a longer text become the whole of it. -/
theorem zero_length_reads_on : ¬ RoundTrips (fun _ => 0) (utf8 [] ++ [97, 98, 0]) 0 (utf8 []) ∧
    newFromUtf8 (fun _ => 0) [97, 98, 0] 0 = .ok ⟨false, [97, 98]⟩ :=
  ⟨not_roundTrips_zero (by decide), rfl⟩

end QuickjsBackend
