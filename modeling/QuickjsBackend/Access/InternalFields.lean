import Mathlib.Algebra.Group.Nat.Defs
import Mathlib.Data.List.GetD
import QuickjsBackend.Foundation.Run
import QuickjsBackend.Foundation.Slots

/-! # Internal fields of an object

The user data of an object is one allocation: `len_`, `callback_` and `parameter_` take
a word each, and the fields lie behind them. The accessors compare the index with
`len_` from above only. They find the user data where the isolate of the object is the
current one and its class id fits; `JS_GetOpaque` answers null otherwise.
-/

namespace QuickjsBackend

open Foundation

/-- Why a call does not return: `abort`, or an access outside of the allocation. -/
inductive FieldFault
  | aborted
  | outOfBounds
  deriving DecidableEq, Repr

/-- The words before `ptrs_`. -/
def headerWords : Nat := 3

/-- The words that the constructor wrapper allocates for `n` fields, those of
`sizeof(ObjectUserData)` and `n - 1` pointers more, all zero but for `len_`. -/
def newUserData (internalFieldCount : Nat) : List (BitVec 64) :=
  BitVec.ofNat 64 internalFieldCount :: List.replicate
    (headerWords + 1 + (internalFieldCount - 1) - 1) 0

/-- `len_`, a 32-bit integer in the first word. -/
def userDataLen (words : List (BitVec 64)) : Int := ((words.getD 0 0).setWidth 32).toInt

/-- An access to `ptrs_[index]`: the index of the word, when it is allocated. -/
def fieldAt (words : List (BitVec 64)) (index : BitVec 32) : Except FieldFault Nat :=
  let word := (headerWords : Int) + index.toInt
  if 0 ≤ word ∧ word < words.length then .ok word.toNat else .error .outOfBounds

/-- `Object::SetAlignedPointerInInternalField`. -/
def setAlignedPointerInInternalField (words : List (BitVec 64)) (index : BitVec 32)
    (value : BitVec 64) : Except FieldFault (List (BitVec 64)) :=
  if userDataLen words ≤ index.toInt then .error .aborted
  else do
    let word ← fieldAt words index
    return words.set word value

/-- `Object::GetAlignedPointerFromInternalField`, of an object that is no function. -/
def getAlignedPointerFromInternalField (words : List (BitVec 64)) (index : BitVec 32) :
    Except FieldFault (BitVec 64) :=
  if userDataLen words ≤ index.toInt then .error .aborted
  else do
    let word ← fieldAt words index
    return words.getD word 0

/-- `Object::InternalFieldCount`, of an object that is no function. -/
def internalFieldCount (words : List (BitVec 64)) : BitVec 32 := (words.getD 0 0).setWidth 32

inductive FieldCall
  | set (index : BitVec 32) (value : BitVec 64)
  | get (index : BitVec 32)
  | count

/-- The user data with what the last call answered, and, for comparison, what was set
last in each field. -/
structure FieldState where
  words : List (BitVec 64)
  answer : BitVec 64
  fields : List (BitVec 64)

namespace FieldState

def new (n : Nat) : FieldState := ⟨newUserData n, 0, List.replicate n 0⟩

def step : StepFn FieldState FieldCall FieldFault := fun state call =>
  match call with
  | .set index value => do
      let words ← setAlignedPointerInInternalField state.words index value
      return { state with words, fields := state.fields.set index.toNat value }
  | .get index => do
      let answer ← getAlignedPointerFromInternalField state.words index
      return { state with answer }
  | .count => .ok { state with answer := (internalFieldCount state.words).signExtend 64 }

/-- What a call should do on an object with `n` fields: abort for an index that is none
of them, else write or read that field alone. -/
def Law (n : Nat) (state : FieldState) (call : FieldCall) (outcome : Except FieldFault FieldState) :
    Prop :=
  match call with
  | .set index value =>
      if 0 ≤ index.toInt ∧ index.toInt < n then
        outcome = .ok { state with
          words := state.words.set (headerWords + index.toNat) value
          fields := state.fields.set index.toNat value }
      else outcome = .error .aborted
  | .get index =>
      if 0 ≤ index.toInt ∧ index.toInt < n then
        outcome = .ok { state with answer := state.fields.getD index.toNat 0 }
      else outcome = .error .aborted
  | .count => outcome = .ok { state with answer := BitVec.ofNat 64 n }

/-- The calls whose index is not negative. -/
def NonNegative (_ : FieldState) : FieldCall → Prop
  | .set index _ => 0 ≤ index.toInt
  | .get index => 0 ≤ index.toInt
  | .count => True

/-- The words are `len_`, no callback and no parameter, and the fields. -/
def Intact (n : Nat) (state : FieldState) : Prop :=
  state.words = BitVec.ofNat 64 n :: 0 :: 0 :: state.fields ∧ state.fields.length = n

variable {n : Nat} {state : FieldState}

theorem intact_new (hn : 1 ≤ n) : Intact n (new n) := by
  refine ⟨?_, List.length_replicate⟩
  have hlength : headerWords + 1 + (n - 1) - 1 = n + 2 := by
    rw [headerWords]
    omega
  rw [new, newUserData, hlength]
  rfl

theorem Intact.length (hintact : Intact n state) : state.words.length = headerWords + n := by
  rw [hintact.1, headerWords]
  simp only [List.length_cons, hintact.2]
  omega

theorem Intact.len (hintact : Intact n state) (hn : n < 2 ^ 31) : userDataLen state.words = n := by
  have hword : ((BitVec.ofNat 64 n).setWidth 32).toNat = n := by
    rw [BitVec.toNat_setWidth, BitVec.toNat_ofNat]
    omega
  rw [userDataLen, hintact.1, List.getD_cons_zero, BitVec.toInt_eq_toNat_of_lt (by omega), hword]

theorem Intact.fieldAt_eq (hintact : Intact n state) {index : BitVec 32} (hnonneg : 0 ≤ index.toInt)
    (hlt : index.toInt < n) : fieldAt state.words index = .ok (headerWords + index.toNat) := by
  have hnat : index.toInt = index.toNat := by
    have hcases := BitVec.toInt_eq_toNat_cond index
    have hbound := index.isLt
    omega
  have hword : 0 ≤ (headerWords : Int) + index.toInt ∧
      (headerWords : Int) + index.toInt < state.words.length := by
    rw [hintact.length]
    omega
  have hindex : ((headerWords : Int) + index.toInt).toNat = headerWords + index.toNat := by omega
  rw [fieldAt, if_pos hword, hindex]

theorem fieldAt_ne_aborted (words : List (BitVec 64)) (index : BitVec 32) :
    fieldAt words index ≠ .error .aborted := by
  intro heq
  simp only [fieldAt] at heq
  split at heq <;> cases heq

theorem set_words (hintact : Intact n state) (index : Nat) (value : BitVec 64) :
    state.words.set (headerWords + index) value =
      BitVec.ofNat 64 n :: 0 :: 0 :: state.fields.set index value := by
  rw [hintact.1, headerWords, Nat.add_comm]
  rfl

theorem getD_words (hintact : Intact n state) (index : Nat) :
    state.words.getD (headerWords + index) 0 = state.fields.getD index 0 := by
  rw [hintact.1, headerWords, Nat.add_comm]
  rfl

theorem signExtend_count (hn : n < 2 ^ 31) :
    ((BitVec.ofNat 64 n).setWidth 32).signExtend 64 = BitVec.ofNat 64 n := by
  have hsmall : ((BitVec.ofNat 64 n).setWidth 32).toNat = n := by
    rw [BitVec.toNat_setWidth, BitVec.toNat_ofNat]
    omega
  rw [BitVec.signExtend_eq_setWidth_of_msb_false
    (BitVec.msb_eq_false_iff_two_mul_lt.mpr (by omega))]
  apply BitVec.eq_of_toNat_eq
  rw [BitVec.toNat_setWidth, hsmall, BitVec.toNat_ofNat]

/-- An access behind the comparison with `len_`: a negative index is not turned away. -/
theorem Intact.checked_iff {β : Type} (hintact : Intact n state) (hn : n < 2 ^ 31)
    (index : BitVec 32) (rest : Nat → β) (next : β → FieldState) :
    (if 0 ≤ index.toInt ∧ index.toInt < n then
        ((if userDataLen state.words ≤ index.toInt then .error .aborted
          else do
            let word ← fieldAt state.words index
            return rest word) >>= fun found => return next found) =
          Except.ok (next (rest (headerWords + index.toNat)))
      else
        ((if userDataLen state.words ≤ index.toInt then .error .aborted
          else do
            let word ← fieldAt state.words index
            return rest word) >>= fun found => return next found) = .error .aborted) ↔
      0 ≤ index.toInt := by
  rw [hintact.len hn]
  by_cases hnonneg : 0 ≤ index.toInt
  · refine iff_of_true ?_ hnonneg
    by_cases hlt : index.toInt < n
    · rw [if_pos ⟨hnonneg, hlt⟩, if_neg (Int.not_le.mpr hlt), hintact.fieldAt_eq hnonneg hlt]
      rfl
    · rw [if_neg (fun h => hlt h.2), if_pos (Int.not_lt.mp hlt)]
      rfl
  · refine iff_of_false (fun hlaw => ?_) hnonneg
    rw [if_neg (fun h => hnonneg h.1), if_neg (by omega)] at hlaw
    have hne := fieldAt_ne_aborted state.words index
    cases hword : fieldAt state.words index with
    | ok word =>
        rw [hword] at hlaw
        cases hlaw
    | error fault =>
        rw [hword] at hlaw hne
        cases hlaw
        exact hne rfl

/-- A call does what it should exactly when its index is not negative. -/
theorem law_iff (hn : n < 2 ^ 31) (hintact : Intact n state) (call : FieldCall) :
    Law n state call (step state call) ↔ NonNegative state call := by
  cases call with
  | set index value =>
      exact hintact.checked_iff hn index (fun word => state.words.set word value)
        fun words => { state with words, fields := state.fields.set index.toNat value }
  | get index =>
      simp only [Law, ← getD_words hintact]
      exact hintact.checked_iff hn index (fun word => state.words.getD word 0)
        fun answer => { state with answer }
  | count =>
      refine iff_of_true ?_ trivial
      simp only [Law, step, internalFieldCount, hintact.1, List.getD_cons_zero, signExtend_count hn]

/-- Calls that do what they should leave the other words alone. -/
theorem intact_of_law {next : FieldState} {call : FieldCall} (hintact : Intact n state)
    (hlaw : Law n state call (.ok next)) : Intact n next := by
  cases call with
  | set index value =>
      simp only [Law] at hlaw
      split at hlaw
      next =>
        cases hlaw
        exact ⟨set_words hintact _ _, by rw [List.length_set, hintact.2]⟩
      next => cases hlaw
  | get index =>
      simp only [Law] at hlaw
      split at hlaw
      next =>
        cases hlaw
        exact hintact
      next => cases hlaw
  | count =>
      cases hlaw
      exact hintact

/-- Along every sequence of calls on an object with `n` fields, each does what it should
exactly when no index is negative. -/
theorem contained_iff (hpos : 1 ≤ n) (hn : n < 2 ^ 31) (calls : List FieldCall) :
    step.Always (Law n) (new n) calls ↔
      step.Always (fun state call _ => NonNegative state call) (new n) calls := by
  refine step.always_iff_of_invariant (Intact n) (fun state call hintact => law_iff hn hintact call)
    (fun state call next hintact hguard hstep => ?_) calls (intact_new hpos)
  have hlaw := (law_iff hn hintact call).mpr hguard
  rw [hstep] at hlaw
  exact intact_of_law hintact hlaw

theorem contained_two : 1 ≤ 2 ∧ 2 < 2 ^ 31 ∧
    (step.Always (Law 2) (new 2) [.set 1 7, .get 1, .get 5] ↔
      step.Always (fun state call _ => NonNegative state call) (new 2)
        [.set 1 7, .get 1, .get 5]) :=
  ⟨by decide, by decide, contained_iff (by decide) (by decide) _⟩

/-- A write at index `-3` replaces `len_`. -/
theorem negative_index_writes_len :
    ¬ step.Always (Law 1) (new 1) [.set (-3) 9] ∧
      ∃ next, step (new 1) (.set (-3) 9) = .ok next ∧ userDataLen next.words = 9 := by
  refine ⟨fun hlaw => ?_, _, rfl, by decide⟩
  have haborted : step (new 1) (.set (-3) 9) = .error .aborted := by
    have hhead := hlaw.1
    simp only [Law] at hhead
    rwa [if_neg (by decide)] at hhead
  cases haborted

end FieldState

end QuickjsBackend
