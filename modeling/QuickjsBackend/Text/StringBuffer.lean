import Mathlib.Algebra.Group.Nat.Defs
import Mathlib.Data.Nat.Bits
import Mathlib.Data.List.TakeWhile

/-! # Strings and string buffers

A string has 8-bit or 16-bit characters. A buffer starts with 8-bit characters and is
widened by the first character that needs more.
-/

namespace QuickjsBackend

/-- Why there is no string, or why the behaviour is undefined. -/
inductive StringFault
  | stringTooLong
  | overflow
  | outOfBounds
  deriving DecidableEq, Repr

structure JSString where
  isWideChar : Bool
  chars : List Nat
  deriving DecidableEq, Repr

/-- `JS_STRING_LEN_MAX`. -/
def stringLenMax : Nat := 2 ^ 30 - 1

/-- `StringBuffer`; `error` is what `error_status` stands for. -/
structure StringBuffer where
  size : Nat
  isWideChar : Bool
  chars : List Nat
  error : Option StringFault
  deriving DecidableEq, Repr

namespace StringBuffer

variable (slack : Nat → Nat) (s : StringBuffer)

/-- `string_buffer_init`. -/
def init (size : Nat) : StringBuffer := ⟨size, false, [], none⟩

/-- `string_buffer_set_error`. -/
def setError (fault : StringFault) : StringBuffer :=
  { s with size := 0, chars := [], error := some fault }

/-- A character in the next place, of 8 or 16 bits. -/
def push (c : Nat) : StringBuffer :=
  { s with chars := s.chars ++ [if s.isWideChar then c % 2 ^ 16 else c % 2 ^ 8] }

/-- `string_buffer_widen`. What `js_realloc2` gives beyond the bytes it was asked for is
used as well. -/
def widen (size : Nat) : StringBuffer :=
  if s.error.isSome then s
  else if 2 ^ 31 ≤ size <<< 1 then s.setError .overflow
  else { s with isWideChar := true, size := size + slack (size <<< 1) >>> 1 }

/-- `string_buffer_realloc`. -/
def realloc (newLen c : Nat) : StringBuffer :=
  if s.error.isSome then s
  else if stringLenMax < newLen then s.setError .stringTooLong
  else
    let newSize := min (max newLen (s.size * 3 / 2)) stringLenMax
    if !s.isWideChar && decide (0x100 ≤ c) then s.widen slack newSize
    else
      let shift := if s.isWideChar then 1 else 0
      { s with size := min (newSize + slack (newSize <<< shift) >>> shift) stringLenMax }

/-- `string_buffer_putc_slow`. -/
def putcSlow (c : Nat) : StringBuffer :=
  let s := if s.size ≤ s.chars.length then s.realloc slack (s.chars.length + 1) c else s
  if s.error.isSome then s
  else if s.isWideChar || decide (c < 0x100) then s.push c
  else
    let s := s.widen slack s.size
    if s.error.isSome then s else s.push c

/-- `string_buffer_putc8`. -/
def putc8 (c : Nat) : StringBuffer :=
  let s := if s.size ≤ s.chars.length then s.realloc slack (s.chars.length + 1) c else s
  if s.error.isSome then s else s.push c

/-- `string_buffer_putc16`. -/
def putc16 (c : Nat) : StringBuffer :=
  if s.chars.length < s.size ∧ (s.isWideChar || decide (c < 0x100)) = true then s.push c
  else s.putcSlow slack c

/-- `string_buffer_write8`. -/
def write8 (bytes : List Nat) : StringBuffer :=
  let s := if s.size < s.chars.length + bytes.length then
    s.realloc slack (s.chars.length + bytes.length) 0 else s
  if s.error.isSome then s else { s with chars := s.chars ++ bytes }

/-- `string_buffer_end`. -/
def finish : Except StringFault JSString :=
  match s.error with
  | some fault => .error fault
  | none => .ok ⟨s.isWideChar, s.chars⟩

/-- Some characters, one after the other. -/
def putAll (units : List Nat) : StringBuffer := units.foldl (putc16 slack) s

/-- The characters that do not fit 8 bits. -/
def IsWide (units : List Nat) : Prop := ∃ c ∈ units, 0x100 ≤ c

instance (units : List Nat) : Decidable (IsWide units) := inferInstanceAs (Decidable (∃ _ ∈ _, _))

/-- A buffer without an error whose characters are as wide as they should be, with room
for some more. -/
structure Holds (room : Nat) : Prop where
  error : s.error = none
  room : s.chars.length + room ≤ s.size

variable {slack s} {room c : Nat} {units : List Nat}

theorem putc8_eq (hholds : s.Holds (room + 1)) : s.putc8 slack c = s.push c := by
  have hroom := hholds.room
  rw [putc8, if_neg (Nat.not_le.mpr (by omega))]
  simp only [hholds.error, Option.isSome_none, Bool.false_eq_true, if_false]

theorem write8_eq (hholds : s.Holds units.length) :
    s.write8 slack units = { s with chars := s.chars ++ units } := by
  have hroom := hholds.room
  rw [write8, if_neg (Nat.not_lt.mpr hroom)]
  simp only [hholds.error, Option.isSome_none, Bool.false_eq_true, if_false]

/-- A character that fits goes in the next place. -/
theorem putc16_eq (hholds : s.Holds (room + 1)) (hfits : s.isWideChar = true ∨ c < 0x100) :
    s.putc16 slack c = s.push c := by
  have hroom := hholds.room
  rw [putc16, if_pos ⟨by omega, by simpa using hfits⟩]

/-- Another one widens the buffer first. -/
theorem putc16_widen (hholds : s.Holds (room + 1)) (hnarrow : s.isWideChar = false)
    (hwide : 0x100 ≤ c) :
    s.putc16 slack c =
      if 2 ^ 31 ≤ s.size <<< 1 then s.setError .overflow
      else ({ s with isWideChar := true, size := s.size + slack (s.size <<< 1) >>> 1 } :
        StringBuffer).push c := by
  have hroom := hholds.room
  have hfits : ¬ (s.chars.length < s.size ∧ (s.isWideChar || decide (c < 0x100)) = true) := by
    rintro ⟨-, h⟩
    rw [hnarrow] at h
    exact absurd (of_decide_eq_true h) (Nat.not_lt.mpr hwide)
  have hnot : (s.isWideChar || decide (c < 0x100)) = false := by
    rw [hnarrow]
    exact decide_eq_false (Nat.not_lt.mpr hwide)
  rw [putc16, if_neg hfits, putcSlow, if_neg (Nat.not_le.mpr (by omega))]
  simp only [hholds.error, hnot, Option.isSome_none, Bool.false_eq_true, if_false, widen]
  split
  next => rfl
  next => rfl

theorem Holds.push (hholds : s.Holds (room + 1)) (c : Nat) : (s.push c).Holds room where
  error := hholds.error
  room := by
    have hroom := hholds.room
    simp only [StringBuffer.push, List.length_append, List.length_singleton]
    omega

theorem Holds.widened (hholds : s.Holds room) (extra : Nat) :
    ({ s with isWideChar := true, size := s.size + extra } : StringBuffer).Holds room :=
  ⟨hholds.error, Nat.le_trans hholds.room (Nat.le_add_right _ _)⟩

/-- A buffer that has given up. -/
structure Dead (s : StringBuffer) : Prop where
  error : s.error.isSome = true
  size : s.size = 0

/-- Room for some more characters, or an error that stays. -/
def Ready (s : StringBuffer) (room : Nat) : Prop := s.Holds room ∨ s.Dead

theorem Dead.putc8_eq (hdead : s.Dead) (c : Nat) : s.putc8 slack c = s := by
  simp only [putc8, realloc, hdead.error, if_true, ite_self]

theorem Dead.putc16_eq (hdead : s.Dead) (c : Nat) : s.putc16 slack c = s := by
  have hfull : ¬ (s.chars.length < s.size ∧ (s.isWideChar || decide (c < 0x100)) = true) := by
    rintro ⟨hlt, -⟩
    rw [hdead.size] at hlt
    exact absurd hlt (Nat.not_lt_zero _)
  rw [putc16, if_neg hfull]
  simp only [putcSlow, realloc, hdead.error, if_true, ite_self]

theorem Ready.putc8_eq (hready : s.Ready (room + 1)) (hc : c < 0x100) :
    s.putc8 slack c = s.putc16 slack c := by
  rcases hready with hholds | hdead
  · rw [StringBuffer.putc8_eq hholds, StringBuffer.putc16_eq hholds (Or.inr hc)]
  · rw [hdead.putc8_eq, hdead.putc16_eq]

theorem Ready.putc16 (hready : s.Ready (room + 1)) (c : Nat) : (s.putc16 slack c).Ready room := by
  rcases hready with hholds | hdead
  · by_cases hfits : s.isWideChar = true ∨ c < 0x100
    · rw [StringBuffer.putc16_eq hholds hfits]
      exact Or.inl (hholds.push c)
    · obtain ⟨hnarrow, hwide⟩ := not_or.mp hfits
      rw [putc16_widen hholds (Bool.eq_false_iff.mpr hnarrow) (Nat.not_lt.mp hwide)]
      split
      next => exact Or.inr ⟨rfl, rfl⟩
      next => exact Or.inl ((hholds.widened _).push c)
  · rw [hdead.putc16_eq]
    exact Or.inr hdead

theorem putAll_append (units more : List Nat) :
    s.putAll slack (units ++ more) = (s.putAll slack units).putAll slack more :=
  List.foldl_append

theorem Ready.putAll (slack : Nat → Nat) (hready : s.Ready (units.length + room)) :
    (s.putAll slack units).Ready room := by
  induction units generalizing s with
  | nil =>
      rw [List.length_nil, Nat.zero_add] at hready
      exact hready
  | cons unit rest ih =>
      refine ih (Ready.putc16 ?_ unit)
      rwa [List.length_cons, Nat.add_right_comm] at hready

theorem Dead.putAll_eq (hdead : s.Dead) (units : List Nat) : s.putAll slack units = s := by
  induction units with
  | nil => rfl
  | cons c rest ih =>
      change (s.putc16 slack c).putAll slack rest = s
      rw [hdead.putc16_eq, ih]

/-- Characters that are no wider than those of the buffer are added to them. -/
theorem putAll_of_fits (hholds : s.Holds units.length) (hsmall : ∀ c ∈ units, c < 2 ^ 16)
    (hfits : s.isWideChar = true ∨ ∀ c ∈ units, c < 0x100) :
    s.putAll slack units = { s with chars := s.chars ++ units } := by
  induction units generalizing s with
  | nil =>
      rw [List.append_nil]
      rfl
  | cons c rest ih =>
      have hc : s.isWideChar = true ∨ c < 0x100 := hfits.imp_right fun h => h c List.mem_cons_self
      have hrest : s.isWideChar = true ∨ ∀ d ∈ rest, d < 0x100 :=
        hfits.imp_right fun h d hd => h d (List.mem_cons_of_mem _ hd)
      have hstored : (if s.isWideChar then c % 2 ^ 16 else c % 2 ^ 8) = c := by
        have hlt := hsmall c List.mem_cons_self
        split
        next => exact Nat.mod_eq_of_lt hlt
        next hnarrow => exact Nat.mod_eq_of_lt (hc.resolve_left hnarrow)
      change (s.putc16 slack c).putAll slack rest = _
      rw [StringBuffer.putc16_eq hholds hc, ih (hholds.push c)
        (fun d hd => hsmall d (List.mem_cons_of_mem _ hd)) hrest]
      simp only [push, hstored, List.append_assoc, List.singleton_append]

/-- Characters with a wide one among them widen the buffer, if it is not too large for
that. -/
theorem putAll_of_wide (hholds : s.Holds units.length) (hsmall : ∀ c ∈ units, c < 2 ^ 16)
    (hnarrow : s.isWideChar = false) (hwide : IsWide units) :
    (s.putAll slack units).finish =
      if 2 ^ 31 ≤ s.size <<< 1 then .error .overflow else .ok ⟨true, s.chars ++ units⟩ := by
  induction units generalizing s with
  | nil =>
      obtain ⟨c, hmem, -⟩ := hwide
      cases hmem
  | cons c rest ih =>
      change ((s.putc16 slack c).putAll slack rest).finish = _
      have hrest : ∀ d ∈ rest, d < 2 ^ 16 := fun d hd => hsmall d (List.mem_cons_of_mem _ hd)
      by_cases hc : c < 0x100
      · have hstored : (if s.isWideChar then c % 2 ^ 16 else c % 2 ^ 8) = c := by
          rw [hnarrow]
          exact Nat.mod_eq_of_lt hc
        have hwide : IsWide rest := by
          obtain ⟨d, hmem, hd⟩ := hwide
          rcases List.mem_cons.mp hmem with rfl | hmem
          · exact absurd hc (Nat.not_lt.mpr hd)
          · exact ⟨d, hmem, hd⟩
        rw [StringBuffer.putc16_eq hholds (Or.inr hc), ih (hholds.push c) hrest hnarrow hwide]
        simp only [push, hstored, List.append_assoc, List.singleton_append]
      · rw [putc16_widen hholds hnarrow (Nat.not_lt.mp hc)]
        split
        next =>
          have hdead : (s.setError .overflow).Dead := ⟨rfl, rfl⟩
          rw [hdead.putAll_eq]
          rfl
        next =>
          rw [putAll_of_fits ((hholds.widened _).push c) hrest (Or.inl rfl)]
          simp only [push, finish, hholds.error, if_true, List.append_assoc, List.singleton_append,
            Nat.mod_eq_of_lt (hsmall c List.mem_cons_self)]

/-- All characters are 16-bit ones. -/
def Bounded (s : StringBuffer) : Prop := ∀ c ∈ s.chars, c < 2 ^ 16

/-- There is a character, unless there was an error. -/
structure Started (s : StringBuffer) : Prop where
  bounded : s.Bounded
  started : s.error = none → s.chars ≠ []

theorem Bounded.of_chars {next : StringBuffer} (hbounded : s.Bounded)
    (hchars : next.chars = s.chars ∨ next.chars = []) : next.Bounded := by
  intro c hmem
  rcases hchars with hsame | hnone
  · exact hbounded c (hsame ▸ hmem)
  · rw [hnone] at hmem
    cases hmem

theorem widen_chars (slack : Nat → Nat) (s : StringBuffer) (size : Nat) :
    (s.widen slack size).chars = s.chars ∨ (s.widen slack size).chars = [] := by
  unfold widen
  split
  next => exact Or.inl rfl
  next =>
    split
    next => exact Or.inr rfl
    next => exact Or.inl rfl

theorem realloc_chars (slack : Nat → Nat) (s : StringBuffer) (newLen c : Nat) :
    (s.realloc slack newLen c).chars = s.chars ∨ (s.realloc slack newLen c).chars = [] := by
  unfold realloc
  split
  next => exact Or.inl rfl
  next =>
    split
    next => exact Or.inr rfl
    next =>
      dsimp only
      split
      next => exact widen_chars _ _ _
      next => exact Or.inl rfl

theorem Bounded.push_started (hbounded : s.Bounded) (c : Nat) : (s.push c).Started where
  bounded d hmem := by
    rcases List.mem_append.mp hmem with hold | hnew
    · exact hbounded d hold
    · rw [List.mem_singleton.mp hnew]
      split <;> omega
  started _ := by simp [push]

theorem Bounded.started_of_error (hbounded : s.Bounded) (herror : s.error.isSome = true) :
    s.Started where
  bounded := hbounded
  started hnone := by
    rw [hnone] at herror
    cases herror

/-- The buffer that a character is put in. -/
theorem Bounded.grown (hbounded : s.Bounded) (newLen c : Nat) :
    (if s.size ≤ s.chars.length then s.realloc slack newLen c else s).Bounded := by
  split
  next => exact hbounded.of_chars (realloc_chars _ _ _ _)
  next => exact hbounded

theorem Bounded.putc8 (slack : Nat → Nat) (hbounded : s.Bounded) (c : Nat) :
    (s.putc8 slack c).Started := by
  have hgrown : (if s.size ≤ s.chars.length then s.realloc slack (s.chars.length + 1) c
    else s).Bounded :=
    hbounded.grown _ _
  unfold StringBuffer.putc8
  dsimp only
  generalize (if s.size ≤ s.chars.length then s.realloc slack (s.chars.length + 1) c else s) = grown
    at hgrown
  split
  next herror => exact hgrown.started_of_error herror
  next => exact hgrown.push_started c

theorem Bounded.putc16 (slack : Nat → Nat) (hbounded : s.Bounded) (c : Nat) :
    (s.putc16 slack c).Started := by
  have hgrown : (if s.size ≤ s.chars.length then s.realloc slack (s.chars.length + 1) c
    else s).Bounded :=
    hbounded.grown _ _
  unfold StringBuffer.putc16
  split
  next => exact hbounded.push_started c
  next =>
    unfold putcSlow
    dsimp only
    generalize (if s.size ≤ s.chars.length then s.realloc slack (s.chars.length + 1) c else s) = grown
      at hgrown
    split
    next herror => exact hgrown.started_of_error herror
    next =>
      split
      next => exact hgrown.push_started c
      next =>
        have hwidened := hgrown.of_chars (widen_chars slack grown grown.size)
        split
        next herror => exact hwidened.started_of_error herror
        next => exact hwidened.push_started c

end StringBuffer

end QuickjsBackend
