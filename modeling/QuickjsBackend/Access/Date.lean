import QuickjsBackend.Access.Representation

/-! # Dates

A date holds its time as a value. The constructor of the language clips the time
before it stores it; `JS_NewDate`, which `Date::New` calls, stores what it is given.
-/

namespace QuickjsBackend

open Foundation

namespace Date

/-- The bound `8.64e15` of `time_clip`. -/
def timeLimit : BitVec 64 := 0x433eb208c2dc0000

def negTimeLimit : BitVec 64 := 0xc33eb208c2dc0000

/-- Times whose absolute value the language allows. -/
def inRange (t : BitVec 64) : Bool := Double.atMost negTimeLimit t && Double.atMost t timeLimit

/-- `time_clip`: the sum with `0.0` has no negative zero. -/
def timeClip (t : BitVec 64) : BitVec 64 :=
  if inRange t then Double.ofInt (Double.truncate t) else Double.nan

variable {layout : Layout} (target : Target layout)

/-- `JS_NewDate`, as the value that the date holds. -/
def new (layout : Layout) (t : BitVec 64) : layout.Value := layout.newFloat64 t

/-- `js_date_constructor` with a number, as the value that the date holds. -/
def jsDateConstructor (padding : BitVec 32) (t : BitVec 64) : layout.Value :=
  target.jsNewFloat64 padding (timeClip t)

/-- `JS_GetDate` of a date. -/
def valueOf (held : layout.Value) : BitVec 64 :=
  if layout.jsIsNumber held then target.jsToFloat64 held else Double.nan

theorem jsIsNumber_newFloat64 (t : BitVec 64) : layout.jsIsNumber (layout.newFloat64 t) = true := by
  rw [Layout.jsIsNumber, layout.tagIsFloat64_newFloat64, Bool.or_true]

theorem jsIsNumber_jsNewFloat64 (padding : BitVec 32) (t : BitVec 64) :
    layout.jsIsNumber (target.jsNewFloat64 padding t) = true := by
  simp only [Target.jsNewFloat64]
  split
  next => rw [Layout.jsIsNumber, layout.getTag_mkVal, decide_eq_true rfl, Bool.true_or]
  next => exact jsIsNumber_newFloat64 t

theorem valueOf_new (t : BitVec 64) : Double.Same (valueOf target (new layout t)) t := by
  have hread := Layout.numberValue_of_float64 target (layout.tagIsFloat64_newFloat64 t)
  rw [Layout.numberValue] at hread
  rw [valueOf, new, if_pos (jsIsNumber_newFloat64 t), hread]
  exact layout.getFloat64_newFloat64 t

theorem valueOf_jsDateConstructor (padding : BitVec 32) (t : BitVec 64) :
    Double.Same (valueOf target (jsDateConstructor target padding t)) (timeClip t) := by
  rw [valueOf, jsDateConstructor, if_pos (jsIsNumber_jsNewFloat64 target padding _)]
  exact Layout.numberValue_jsNewFloat64 target padding (timeClip t)

theorem not_isNaN_of_inRange {t : BitVec 64} (hrange : inRange t = true) :
    Double.isNaN t = false := by
  simp only [inRange, Double.atMost, Bool.and_eq_true, Bool.not_eq_true'] at hrange
  exact hrange.2.1.1

/-- Clipping keeps exactly NaN and the integers in range other than negative zero. -/
theorem same_timeClip_iff (t : BitVec 64) : Double.Same t (timeClip t) ↔
    Double.isNaN t = true ∨ inRange t = true ∧ t = Double.ofInt (Double.truncate t) := by
  by_cases hrange : inRange t = true
  · have hnan := not_isNaN_of_inRange hrange
    rw [timeClip, if_pos hrange, Double.Same]
    simp [hnan, hrange]
  · rw [timeClip, if_neg hrange, Double.Same]
    have hnan : Double.isNaN Double.nan = true := by decide
    constructor
    · rintro (heq | ⟨ht, _⟩)
      · rw [← heq] at hnan
        exact Or.inl hnan
      · exact Or.inl ht
    · rintro (ht | ⟨ht, _⟩)
      · exact Or.inr ⟨ht, hnan⟩
      · exact absurd ht hrange

/-- A date made through the API holds the time that the language would give it exactly
for NaN and the integers in range other than negative zero. -/
theorem clips_iff (padding : BitVec 32) (t : BitVec 64) :
    (Double.Same (valueOf target (new layout t)) (timeClip t) ∧
      Double.Same (valueOf target (new layout t))
        (valueOf target (jsDateConstructor target padding t))) ↔
      Double.isNaN t = true ∨ inRange t = true ∧ t = Double.ofInt (Double.truncate t) := by
  rw [← same_timeClip_iff]
  have hheld := valueOf_new target t
  constructor
  · rintro ⟨hclip, _⟩
    exact hheld.symm.trans hclip
  · intro hclip
    have hnew := hheld.trans hclip
    exact ⟨hnew, hnew.trans (valueOf_jsDateConstructor target padding t).symm⟩

/-- A date at half a millisecond is not one the language can make. -/
theorem half_is_kept : ¬ Double.Same
    (valueOf ⟨fun _ => 0, fun _ => 0, fun _ => 0, fun _ => 0⟩
      (new Layout.tagged 0x3fe0000000000000))
    (timeClip 0x3fe0000000000000) := by
  intro hsame
  have hclip := (same_timeClip_iff _).mp ((valueOf_new _ _).symm.trans hsame)
  exact absurd hclip (by decide)

end Date

end QuickjsBackend
