import QuickjsBackend.Access.Operations

/-! # What is reported of a failed access

The engine tells in each answer that a call threw, by `JS_ATOM_NULL`, a negative
number or the exception value, and keeps the exception for whoever asks for it.
What an operation asks of the engine is stated apart from what it makes of the
answers, and the two are compared. No operation asks for the exception, and half
of them do not look for one.
-/

namespace QuickjsBackend

/-- What an answer says about the call. -/
inductive Verdict
  | threw
  | refused
  | succeeded
  deriving DecidableEq, Repr

/-- How the engine encodes a verdict in an answer. -/
class Answer (α : Type) where
  verdict : α → Verdict

instance : Answer JSAtom where
  verdict atom := if atom = atomNull then .threw else .succeeded

instance : Answer Int where
  verdict code := if code < 0 then .threw else if code = 0 then .refused else .succeeded

instance : Answer JSValue where
  verdict value := if value.isException then .threw else .succeeded

/-- `JS_ToFloat64` returns nonzero on failure, whatever the double. -/
instance : Answer (Int × BitVec 64) where
  verdict answer := if answer.1 = 0 then .succeeded else .threw

theorem verdict_int_eq_threw_iff {code : Int} : Answer.verdict code = .threw ↔ code < 0 := by
  simp only [Answer.verdict]
  split
  · simp_all
  · split <;> simp_all

theorem verdict_int_eq_refused_iff {code : Int} : Answer.verdict code = .refused ↔ code = 0 := by
  simp only [Answer.verdict]
  split
  · simp only [reduceCtorEq, false_iff]
    omega
  · split <;> simp_all

theorem verdict_value_eq_threw_iff {value : JSValue} :
    Answer.verdict value = .threw ↔ value.isException = true := by
  simp only [Answer.verdict]
  split <;> simp_all

theorem verdict_value_ne_refused (value : JSValue) : Answer.verdict value ≠ .refused := by
  simp only [Answer.verdict]
  split <;> simp

/-- A call of which only the verdict is kept. -/
def judged {State α : Type} [Answer α] (call : State → α × State) (state : State) :
    Verdict × State :=
  (Answer.verdict (call state).1, (call state).2)

/-- What an operation asks of the engine. -/
inductive Demand (State : Type)
  | nothing
  | call (operation : State → Verdict × State)
  | keyed (convert : State → JSAtom × State) (operation : JSAtom → State → Verdict × State)

namespace Demand

variable {State : Type} (demand : Demand State) (state : State)

/-- The state in which converting the key has failed. -/
def keyFailure : Option State :=
  match demand with
  | .keyed convert _ =>
      if Answer.verdict (convert state).1 = .threw then some (convert state).2 else none
  | _ => none

/-- The last call, made whether or not the key was converted. -/
def last : Verdict × State :=
  match demand with
  | .nothing => (.succeeded, state)
  | .call operation => operation state
  | .keyed convert operation => operation (convert state).1 (convert state).2

/-- The state right after the first call that threw. -/
def thrownAt : Option State :=
  match demand.keyFailure state with
  | some failed => some failed
  | none => if (demand.last state).1 = .threw then some (demand.last state).2 else none

/-- No call throws. -/
def Quiet : Prop :=
  demand.keyFailure state = none ∧ (demand.last state).1 ≠ .threw

instance : Decidable (demand.Quiet state) :=
  decidable_of_iff ((demand.keyFailure state).isNone ∧ (demand.last state).1 ≠ .threw)
    (by rw [Quiet, Option.isNone_iff_eq_none])

theorem thrownAt_eq_none_iff : demand.thrownAt state = none ↔ demand.Quiet state := by
  unfold thrownAt Quiet
  cases hkey : demand.keyFailure state with
  | none => simp
  | some failed => simp

end Demand

variable {State Contents : Type} (engine : Engine State Contents)

/-- What each operation asks of the engine. -/
def Access.demand (this : JSValue) : Access → Demand State
  | .set key value =>
      if key.isNumber then
        .call (judged (engine.setPropertyUint32 this (engine.uint32Value key) value))
      else
        .keyed (engine.valueToAtom key) fun atom => judged (engine.setProperty this atom value)
  | .setIndex index value => .call (judged (engine.setPropertyUint32 this index value))
  | .get key =>
      if key.isNumber then
        .call (judged (engine.getPropertyUint32 this (engine.uint32Value key)))
      else
        .keyed (engine.valueToAtom key) fun atom => judged (engine.getProperty this atom)
  | .getIndex index => .call (judged (engine.getPropertyUint32 this index))
  | .getOwnPropertyNames => .call (judged (engine.getOwnPropertyNamesAsArray this))
  | .hasOwnProperty key =>
      .keyed (engine.valueToAtom key) fun atom => judged (engine.getOwnProperty this atom)
  | .setPrototype prototype => .call (judged (engine.setPrototype this prototype))
  | .toString => if this.isString then .nothing else .call (judged (engine.toString this))
  | .numberValue => .call (judged (engine.toFloat64 this))
  | .mapGet key => .call (judged (engine.mapGet this key))
  | .mapSet key value => .call (judged (engine.mapSet this key value))
  | .mapDelete key => .call (judged (engine.mapDelete this key))

/-- A result is faithful to the engine if what throws comes back empty, with the
exception in the innermost `TryCatch` and not in the engine, and with the
receiver as a failed conversion of the key left it; and if success means success. -/
structure Engine.Faithful (this : JSValue) (access : Access) (state : State) : Prop where
  empty : ∀ thrown, (access.demand engine this).thrownAt state = some thrown →
    (access.perform engine this state).1.isEmpty = true
  delivered : ∀ thrown, (access.demand engine this).thrownAt state = some thrown →
    engine.tryCatches state ≠ [] →
      (engine.tryCatches (access.perform engine this state).2).head? = engine.pending thrown
  settled : ∀ thrown, (access.demand engine this).thrownAt state = some thrown →
    engine.pending (access.perform engine this state).2 = none
  unchanged : ∀ failed, (access.demand engine this).keyFailure state = some failed →
    engine.contents (access.perform engine this state).2 this = engine.contents failed this
  succeeded : (access.perform engine this state).1.isSuccess = true →
    (access.demand engine this).thrownAt state = none ∧
      ((access.demand engine this).last state).1 = .succeeded

/-- A call that throws leaves its exception in the engine, as `JS_Throw` does. -/
def Engine.Raises {α : Type} [Answer α] (call : State → α × State) : Prop :=
  ∀ state, Answer.verdict (call state).1 = .threw → engine.pending (call state).2 ≠ none

/-- The convention the entry points keep; `JS_SetPrototype` throws where it could
answer `FALSE`. -/
structure Engine.Lawful : Prop where
  setProperty : ∀ this atom value, engine.Raises (engine.setProperty this atom value)
  setPropertyUint32 :
    ∀ this index value, engine.Raises (engine.setPropertyUint32 this index value)
  getProperty : ∀ this atom, engine.Raises (engine.getProperty this atom)
  getPropertyUint32 : ∀ this index, engine.Raises (engine.getPropertyUint32 this index)
  getOwnPropertyNamesAsArray : ∀ this, engine.Raises (engine.getOwnPropertyNamesAsArray this)
  getOwnProperty : ∀ this atom, engine.Raises (engine.getOwnProperty this atom)
  setPrototype : ∀ this prototype, engine.Raises (engine.setPrototype this prototype)
  toString : ∀ this, engine.Raises (engine.toString this)
  toFloat64 : ∀ this, engine.Raises (engine.toFloat64 this)
  mapGet : ∀ this key, engine.Raises (engine.mapGet this key)
  mapSet : ∀ this key value, engine.Raises (engine.mapSet this key value)
  mapDelete : ∀ this key, engine.Raises (engine.mapDelete this key)
  setPrototype_ne_zero : ∀ this prototype state, (engine.setPrototype this prototype state).1 ≠ 0

namespace Access

variable {engine} {this : JSValue} {access : Access} {state : State}

/-- The operations that look for an exception in the answer. -/
def looksForException : Access → Bool
  | .getOwnPropertyNames => true
  | .hasOwnProperty _ => true
  | .mapGet _ => true
  | .mapSet _ _ => true
  | .mapDelete _ => true
  | _ => false

theorem unlessException_state (answer : JSValue × State) :
    (unlessException answer).2 = answer.2 := by
  unfold unlessException
  split <;> rfl

theorem unlessException_isNone_iff (answer : JSValue × State) :
    (unlessException answer).1.isNone = true ↔ Answer.verdict answer.1 = .threw := by
  unfold unlessException
  rw [verdict_value_eq_threw_iff]
  split <;> simp_all

/-- No operation touches the engine but by the calls it makes. -/
theorem perform_state (access : Access) :
    (access.perform engine this state).2 = ((access.demand engine this).last state).2 := by
  cases access with
  | set key value =>
      simp only [perform, Object.set, demand]
      split <;> rfl
  | get key =>
      simp only [perform, Object.get, demand]
      split <;> rfl
  | hasOwnProperty key =>
      simp only [perform, Object.hasOwnProperty, demand]
      split <;> rfl
  | setPrototype prototype =>
      simp only [perform, Object.setPrototype, demand]
      split <;> rfl
  | toString =>
      simp only [perform, Value.toString, demand]
      split <;> rfl
  | getOwnPropertyNames => exact unlessException_state _
  | mapGet key => exact unlessException_state _
  | mapSet key value => exact unlessException_state _
  | mapDelete key => exact unlessException_state _
  | setIndex index value => rfl
  | getIndex index => rfl
  | numberValue => rfl

/-- A result is empty exactly if the operation looks for an exception and its
last call threw. -/
theorem perform_isEmpty_iff (access : Access) :
    (access.perform engine this state).1.isEmpty = true ↔
      access.looksForException = true ∧ ((access.demand engine this).last state).1 = .threw := by
  cases access with
  | getOwnPropertyNames => exact (unlessException_isNone_iff _).trans (and_iff_right rfl).symm
  | mapGet key => exact (unlessException_isNone_iff _).trans (and_iff_right rfl).symm
  | mapSet key value => exact (unlessException_isNone_iff _).trans (and_iff_right rfl).symm
  | mapDelete key => exact (unlessException_isNone_iff _).trans (and_iff_right rfl).symm
  | hasOwnProperty key =>
      simp only [perform, Object.hasOwnProperty, demand, Demand.last, judged, looksForException,
        verdict_int_eq_threw_iff, true_and]
      split <;> simp_all [AccessResult.isEmpty]
  | set key value =>
      simp only [perform, Object.set]
      split <;> simp [AccessResult.isEmpty, looksForException]
  | get key =>
      simp only [perform, Object.get]
      split <;> simp [AccessResult.isEmpty, looksForException]
  | setPrototype prototype =>
      simp only [perform, Object.setPrototype]
      split <;> simp [AccessResult.isEmpty, looksForException]
  | toString =>
      simp only [perform, Value.toString]
      split <;> simp [AccessResult.isEmpty, looksForException]
  | setIndex index value => simp [perform, Object.setIndex, AccessResult.isEmpty, looksForException]
  | getIndex index => simp [perform, Object.getIndex, AccessResult.isEmpty, looksForException]
  | numberValue => simp [perform, Value.numberValue, AccessResult.isEmpty, looksForException]

/-- Success is never reported of a call the engine has refused. -/
theorem last_ne_refused (hengine : engine.Lawful) (access : Access)
    (hsuccess : (access.perform engine this state).1.isSuccess = true) :
    ((access.demand engine this).last state).1 ≠ .refused := by
  have hcode : ∀ ok : Int, (AccessResult.bool (some (ok != 0))).isSuccess = true →
      Answer.verdict ok ≠ .refused := by
    intro ok hok hrefused
    rw [verdict_int_eq_refused_iff] at hrefused
    subst hrefused
    exact absurd hok (by decide)
  cases access with
  | set key value =>
      simp only [perform, Object.set, demand] at hsuccess ⊢
      split at hsuccess
      · rw [if_pos ‹_›]
        exact hcode _ hsuccess
      · rw [if_neg ‹_›]
        exact hcode _ hsuccess
  | setIndex index value => exact hcode _ hsuccess
  | hasOwnProperty key =>
      simp only [perform, Object.hasOwnProperty] at hsuccess
      split at hsuccess
      · exact absurd hsuccess Bool.false_ne_true
      · exact hcode _ hsuccess
  | setPrototype prototype =>
      intro hrefused
      exact hengine.setPrototype_ne_zero this prototype state
        (verdict_int_eq_refused_iff.mp hrefused)
  | get key =>
      simp only [demand]
      split <;> exact verdict_value_ne_refused _
  | toString =>
      simp only [demand]
      split
      · simp [Demand.last]
      · exact verdict_value_ne_refused _
  | numberValue =>
      simp only [demand, Demand.last, judged, Answer.verdict]
      split <;> simp
  | getIndex index => exact verdict_value_ne_refused _
  | getOwnPropertyNames => exact verdict_value_ne_refused _
  | mapGet key => exact verdict_value_ne_refused _
  | mapSet key value => exact verdict_value_ne_refused _
  | mapDelete key => exact verdict_value_ne_refused _

/-- The exception of the last call stays in the engine. -/
theorem pending_of_threw (hengine : engine.Lawful) (access : Access)
    (hthrew : ((access.demand engine this).last state).1 = .threw) :
    engine.pending ((access.demand engine this).last state).2 ≠ none := by
  cases access with
  | set key value =>
      simp only [demand] at hthrew ⊢
      split at hthrew
      · rw [if_pos ‹_›]
        exact hengine.setPropertyUint32 _ _ _ _ hthrew
      · rw [if_neg ‹_›]
        exact hengine.setProperty _ _ _ _ hthrew
  | setIndex index value => exact hengine.setPropertyUint32 _ _ _ _ hthrew
  | get key =>
      simp only [demand] at hthrew ⊢
      split at hthrew
      · rw [if_pos ‹_›]
        exact hengine.getPropertyUint32 _ _ _ hthrew
      · rw [if_neg ‹_›]
        exact hengine.getProperty _ _ _ hthrew
  | getIndex index => exact hengine.getPropertyUint32 _ _ _ hthrew
  | getOwnPropertyNames => exact hengine.getOwnPropertyNamesAsArray _ _ hthrew
  | hasOwnProperty key => exact hengine.getOwnProperty _ _ _ hthrew
  | setPrototype prototype => exact hengine.setPrototype _ _ _ hthrew
  | toString =>
      simp only [demand] at hthrew ⊢
      split at hthrew
      · exact absurd hthrew (by simp [Demand.last])
      · rw [if_neg ‹_›]
        exact hengine.toString _ _ hthrew
  | numberValue => exact hengine.toFloat64 _ _ hthrew
  | mapGet key => exact hengine.mapGet _ _ _ hthrew
  | mapSet key value => exact hengine.mapSet _ _ _ _ hthrew
  | mapDelete key => exact hengine.mapDelete _ _ _ hthrew

end Access

namespace Engine

variable {engine}

/-- Every operation reports faithfully exactly when no call it makes throws. -/
theorem faithful_iff_quiet (hengine : engine.Lawful) (this : JSValue) (access : Access)
    (state : State) :
    engine.Faithful this access state ↔ (access.demand engine this).Quiet state := by
  rw [← Demand.thrownAt_eq_none_iff]
  constructor
  · intro hfaithful
    cases hthrown : (access.demand engine this).thrownAt state with
    | none => rfl
    | some thrown =>
        have hempty := hfaithful.empty thrown hthrown
        have hthrew := (access.perform_isEmpty_iff.mp hempty).2
        have hpending := Access.pending_of_threw hengine access hthrew
        rw [← Access.perform_state] at hpending
        exact absurd (hfaithful.settled thrown hthrown) hpending
  · intro hnone
    obtain ⟨hkey, hlast⟩ := (Demand.thrownAt_eq_none_iff _ _).mp hnone
    refine ⟨?_, ?_, ?_, ?_, ?_⟩
    · intro thrown hthrown
      exact absurd (hnone.symm.trans hthrown) (by simp)
    · intro thrown hthrown
      exact absurd (hnone.symm.trans hthrown) (by simp)
    · intro thrown hthrown
      exact absurd (hnone.symm.trans hthrown) (by simp)
    · intro failed hfailed
      exact absurd (hkey.symm.trans hfailed) (by simp)
    · intro hsuccess
      refine ⟨hnone, ?_⟩
      have hrefused := Access.last_ne_refused hengine access hsuccess
      cases hverdict : ((access.demand engine this).last state).1 with
      | threw => exact absurd hverdict hlast
      | refused => exact absurd hverdict hrefused
      | succeeded => rfl

/-- An engine with one object, an ordinary one that `Object.freeze` was called on:
writing to it, giving it another prototype and treating it as a `Map` throw `error`.
Its state is the exception it keeps and what the open `TryCatch` objects caught. -/
def frozen (error : JSValue) : Engine (Option JSValue × List JSValue) Unit where
  valueToAtom _ state := (1, state)
  setProperty _ _ _ state := (-1, some error, state.2)
  setPropertyUint32 _ _ _ state := (-1, some error, state.2)
  getProperty _ _ state := (.undefined, state)
  getPropertyUint32 _ _ state := (.undefined, state)
  getOwnPropertyNamesAsArray _ state := (.ref .object 2, state)
  getOwnProperty _ _ state := (0, state)
  setPrototype _ _ state := (-1, some error, state.2)
  toString _ state := (.ref .string 3, state)
  toFloat64 _ state := ((0, 0x7ff8000000000000), state)
  mapGet _ _ state := (.exception, some error, state.2)
  mapSet _ _ _ state := (.exception, some error, state.2)
  mapDelete _ _ state := (.exception, some error, state.2)
  uint32Value _ := 0
  pending state := state.1
  tryCatches state := state.2
  contents _ _ := ()

theorem frozen_lawful (error : JSValue) : (frozen error).Lawful := by
  constructor <;> intros <;> simp [Raises, frozen, Answer.verdict, JSValue.isException]

/-- Reading a property of a frozen object is quiet, writing one is not. -/
theorem faithful_iff_quiet_frozen :
    (frozen (.ref .object 4)).Faithful (.ref .object 1) (.get (.ref .string 5)) (none, []) ∧
      ¬ (frozen (.ref .object 4)).Faithful (.ref .object 1)
        (.set (.ref .string 5) .null) (none, []) := by
  constructor
  · exact (faithful_iff_quiet (frozen_lawful _) _ _ _).mpr (by decide)
  · exact (faithful_iff_quiet (frozen_lawful _) _ _ _).not.mpr (by decide)

/-- `Set` on a frozen object throws a `TypeError` inside an open `TryCatch`, and
returns `Just(true)` with the error still in the engine. -/
theorem frozen_set_just_true :
    ¬ ∀ (State Contents : Type) (engine : Engine State Contents), engine.Lawful →
      ∀ (this : JSValue) (access : Access) (state : State), engine.Faithful this access state := by
  intro hall
  have hfaithful := hall _ _ (frozen (.ref .object 4)) (frozen_lawful _) (.ref .object 1)
    (.set (.ref .string 5) .null) (none, [.undefined])
  have hempty := hfaithful.empty (some (.ref .object 4), [.undefined]) rfl
  exact Bool.false_ne_true hempty

end Engine

end QuickjsBackend
