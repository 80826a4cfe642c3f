import Mathlib.Algebra.Group.Nat.Defs
import QuickjsBackend.Foundation.Run
import QuickjsBackend.Foundation.Slots

/-! # Class ids of isolates

Every isolate takes a new id from a counter of the process and registers a class under
it in its runtime. Objects store the id of their class in 16 bits, and their finalizer
is looked up by what they store.
-/

namespace QuickjsBackend

open Foundation

inductive ClassFinalizer
  | builtin
  | v8FinalizerWrap
  deriving DecidableEq, Repr

/-- `JS_CLASS_INIT_COUNT`. -/
def classInitCount : Nat := 58

/-- The finalizers in the class array of a runtime, of the entries in use. -/
abbrev ClassArray := BitVec 32 → Option ClassFinalizer

/-- The ids of the predefined classes. -/
def Predefined (id : BitVec 32) : Prop := 1 ≤ id.toNat ∧ id.toNat < classInitCount

instance (id : BitVec 32) : Decidable (Predefined id) := inferInstanceAs (Decidable (_ ∧ _))

/-- The class array of a new runtime. -/
def ClassArray.new : ClassArray := fun id => if Predefined id then some .builtin else none

/-- `JS_NewClass` for the class of an isolate. The entry with id zero always counts as
free; an id in use is left as it is, and the answer is not looked at. -/
def ClassArray.newClass (array : ClassArray) (id : BitVec 32) : ClassArray :=
  if id ≠ 0 ∧ (array id).isSome then array else Function.update array id (some .v8FinalizerWrap)

structure IsolateClass where
  runtime : Nat
  classId : BitVec 32
  disposed : Bool

/-- An object that the constructor wrapper made, with its `class_id`. -/
structure WrappedObject where
  isolate : Nat
  classId : BitVec 16

/-- The counter of the process, and all runtimes, isolates and objects there have been,
in the order they came. -/
structure ClassWorld where
  classIdAlloc : BitVec 32
  runtimes : List ClassArray
  isolates : List IsolateClass
  objects : List WrappedObject

/-- An isolate is made with a runtime of its own or one of the embedder. -/
inductive ClassAction
  | newRuntime
  | newIsolate (externalRuntime : Option Nat)
  | dispose (isolate : Nat)
  | construct (isolate : Nat)

inductive ClassFault
  | noSuchRuntime
  | noSuchIsolate

namespace ClassWorld

def start : ClassWorld := ⟨BitVec.ofNat 32 classInitCount, [], [], []⟩

/-- `Isolate::Isolate` in the runtime at an index. -/
def register (w : ClassWorld) (runtime : Nat) : ClassWorld :=
  { w with
    classIdAlloc := w.classIdAlloc + 1
    runtimes := w.runtimes.modify runtime (·.newClass w.classIdAlloc)
    isolates := w.isolates ++ [⟨runtime, w.classIdAlloc, false⟩] }

def step : StepFn ClassWorld ClassAction ClassFault := fun w action =>
  match action with
  | .newRuntime => .ok { w with runtimes := w.runtimes ++ [ClassArray.new] }
  | .newIsolate none =>
      .ok (register { w with runtimes := w.runtimes ++ [ClassArray.new] } w.runtimes.length)
  | .newIsolate (some runtime) =>
      if runtime < w.runtimes.length then .ok (w.register runtime) else .error .noSuchRuntime
  | .dispose isolate =>
      .ok { w with isolates := w.isolates.modify isolate ({ · with disposed := true }) }
  | .construct isolate =>
      match w.isolates[isolate]? with
      | some entry =>
          if entry.disposed then .error .noSuchIsolate
          else .ok { w with objects := w.objects ++ [⟨isolate, entry.classId.setWidth 16⟩] }
      | none => .error .noSuchIsolate

/-- Whether `JS_GetOpaque` with the id of the isolate answers for the object, and the
finalizer that runs for it. -/
structure Finds (w : ClassWorld) (object : WrappedObject) : Prop where
  isolate : ∃ entry, w.isolates[object.isolate]? = some entry ∧
    object.classId.setWidth 32 = entry.classId ∧
    ∃ array, w.runtimes[entry.runtime]? = some array ∧
      array (object.classId.setWidth 32) = some .v8FinalizerWrap

/-- An array of a runtime: the predefined classes, and classes of isolates. -/
def Ordered (array : ClassArray) : Prop :=
  ∀ id, (Predefined id → array id = some .builtin) ∧
    (¬ Predefined id → array id = none ∨ array id = some .v8FinalizerWrap)

structure Consistent (w : ClassWorld) : Prop where
  alloc : w.classIdAlloc = BitVec.ofNat 32 (classInitCount + w.isolates.length)
  ordered : ∀ array ∈ w.runtimes, Ordered array
  isolates : ∀ index entry, w.isolates[index]? = some entry →
    entry.classId = BitVec.ofNat 32 (classInitCount + index) ∧
    ∃ array, w.runtimes[entry.runtime]? = some array ∧ (array entry.classId).isSome = true
  objects : ∀ object ∈ w.objects, ∃ entry, w.isolates[object.isolate]? = some entry ∧
    object.classId = entry.classId.setWidth 16

variable {w next : ClassWorld} {array : ClassArray}

theorem ordered_new : Ordered ClassArray.new := by
  intro id
  constructor
  · intro hid
    exact if_pos hid
  · intro hid
    exact Or.inl (if_neg hid)

theorem ordered_newClass (hordered : Ordered array) (id : BitVec 32) :
    Ordered (array.newClass id) := by
  unfold ClassArray.newClass
  split
  next => exact hordered
  next hfree =>
    intro other
    by_cases heq : other = id
    · subst other
      rw [Function.update_self]
      refine ⟨fun hid => ?_, fun _ => Or.inr rfl⟩
      have hbuiltin := (hordered id).1 hid
      have hne : id ≠ 0 := by
        rintro rfl
        exact absurd hid.1 (by decide)
      exact absurd ⟨hne, by rw [hbuiltin]; rfl⟩ hfree
    · rw [Function.update_of_ne heq]
      exact hordered other

theorem newClass_isSome (array : ClassArray) (id : BitVec 32) :
    (array.newClass id id).isSome = true := by
  unfold ClassArray.newClass
  split
  next hused => exact hused.2
  next => rw [Function.update_self]; rfl

theorem newClass_mono (id : BitVec 32) {other : BitVec 32} (hsome : (array other).isSome = true) :
    (array.newClass id other).isSome = true := by
  unfold ClassArray.newClass
  split
  next => exact hsome
  next =>
    by_cases heq : other = id
    · rw [heq, Function.update_self]
      rfl
    · rwa [Function.update_of_ne heq]

theorem consistent_start : Consistent start where
  alloc := rfl
  ordered _ harray := by cases harray
  isolates _ _ hentry := by cases hentry
  objects _ hobject := by cases hobject

/-- More runtimes do no harm. -/
theorem Consistent.newRuntime (hw : Consistent w) :
    Consistent { w with runtimes := w.runtimes ++ [ClassArray.new] } where
  alloc := hw.alloc
  ordered array harray := by
    rcases List.mem_append.mp harray with hold | hnew
    · exact hw.ordered array hold
    · exact List.mem_singleton.mp hnew ▸ ordered_new
  isolates index entry hentry := by
    obtain ⟨hid, array, harray, hsome⟩ := hw.isolates index entry hentry
    have hlt := (List.getElem?_eq_some_iff.mp harray).1
    exact ⟨hid, array, (List.getElem?_append_left hlt).trans harray, hsome⟩
  objects := hw.objects

/-- The class of a new isolate. -/
theorem Consistent.register (hw : Consistent w) {runtime : Nat}
    (hruntime : runtime < w.runtimes.length) :
    Consistent (w.register runtime) where
  alloc := by
    change w.classIdAlloc + 1 = BitVec.ofNat 32 (classInitCount + (w.isolates ++ [_]).length)
    rw [hw.alloc, List.length_append, List.length_singleton, ← Nat.add_assoc]
    exact (BitVec.ofNat_add ..).symm
  ordered array harray := by
    obtain ⟨index, hindex⟩ := List.mem_iff_getElem?.mp harray
    change (w.runtimes.modify runtime _)[index]? = some array at hindex
    rw [List.getElem?_modify] at hindex
    obtain ⟨old, hold, heq⟩ := Option.map_eq_some_iff.mp hindex
    have hordered := hw.ordered old (List.mem_of_getElem? hold)
    rw [← heq]
    split
    next => exact ordered_newClass hordered _
    next => exact hordered
  isolates index entry hentry := by
    change (w.isolates ++ [_])[index]? = some entry at hentry
    have hmodify : ∀ r old, w.runtimes[r]? = some old →
        (w.register runtime).runtimes[r]? =
          some (if runtime = r then old.newClass w.classIdAlloc else old) := by
      intro r old hold
      change (w.runtimes.modify runtime _)[r]? = _
      rw [List.getElem?_modify, hold]
      split <;> rfl
    by_cases hindex : index < w.isolates.length
    · rw [List.getElem?_append_left hindex] at hentry
      obtain ⟨hid, old, hold, hsome⟩ := hw.isolates index entry hentry
      refine ⟨hid, _, hmodify _ old hold, ?_⟩
      split
      next => exact newClass_mono _ hsome
      next => exact hsome
    · have hlt := (List.getElem?_eq_some_iff.mp hentry).1
      rw [List.length_append, List.length_singleton] at hlt
      have hlast : index = w.isolates.length := by omega
      subst index
      rw [List.getElem?_append_right (Nat.le_refl _), Nat.sub_self] at hentry
      cases hentry
      refine ⟨hw.alloc, _, hmodify _ _ (List.getElem?_eq_getElem hruntime), ?_⟩
      rw [if_pos rfl]
      exact newClass_isSome _ _
  objects object hobject := by
    obtain ⟨entry, hentry, hid⟩ := hw.objects object hobject
    have hlt := (List.getElem?_eq_some_iff.mp hentry).1
    exact ⟨entry, (List.getElem?_append_left hlt).trans hentry, hid⟩

theorem Consistent.dispose (hw : Consistent w) (isolate : Nat) :
    Consistent { w with isolates := w.isolates.modify isolate ({ · with disposed := true }) } where
  alloc := by rw [List.length_modify, hw.alloc]
  ordered := hw.ordered
  isolates index entry hentry := by
    rw [List.getElem?_modify] at hentry
    obtain ⟨old, hold, heq⟩ := Option.map_eq_some_iff.mp hentry
    rw [← heq]
    split
    next => exact hw.isolates index old hold
    next => exact hw.isolates index old hold
  objects object hobject := by
    obtain ⟨entry, hentry, hid⟩ := hw.objects object hobject
    rw [List.getElem?_modify, hentry]
    refine ⟨_, rfl, ?_⟩
    split
    next => exact hid
    next => exact hid

theorem consistent_step (hw : Consistent w) {action : ClassAction}
    (hstep : step w action = .ok next) :
    Consistent next := by
  cases action with
  | newRuntime =>
      cases hstep
      exact hw.newRuntime
  | newIsolate externalRuntime =>
      cases externalRuntime with
      | none =>
          cases hstep
          exact hw.newRuntime.register (by simp)
      | some runtime =>
          simp only [step] at hstep
          split at hstep
          next hlt =>
            cases hstep
            exact hw.register hlt
          next => cases hstep
  | dispose isolate =>
      cases hstep
      exact hw.dispose isolate
  | construct isolate =>
      simp only [step] at hstep
      split at hstep
      next entry hentry =>
        split at hstep
        next => cases hstep
        next =>
          cases hstep
          refine ⟨hw.alloc, hw.ordered, hw.isolates, fun object hobject => ?_⟩
          rcases List.mem_append.mp hobject with hold | hnew
          · exact hw.objects object hold
          · obtain rfl := List.mem_singleton.mp hnew
            exact ⟨entry, hentry, rfl⟩
      next => cases hstep

/-- The ids that an object can store and that are no predefined class. -/
def Fits (id : Nat) : Prop := id < 2 ^ 16 ∧ (id = 0 ∨ classInitCount ≤ id)

theorem setWidth_eq_iff (id : BitVec 32) : (id.setWidth 16).setWidth 32 = id ↔
    id.toNat < 2 ^ 16 := by
  have hlt := id.isLt
  rw [← BitVec.toNat_inj, BitVec.toNat_setWidth, BitVec.toNat_setWidth]
  omega

/-- An object is found, and its finalizer is the one of its isolate, exactly when the id
of the isolate fits. -/
theorem finds_iff (hw : Consistent w) {object : WrappedObject} (hobject : object ∈ w.objects) :
    w.Finds object ↔ Fits ((classInitCount + object.isolate) % 2 ^ 32) := by
  obtain ⟨entry, hentry, hstored⟩ := hw.objects object hobject
  obtain ⟨hid, array, harray, hsome⟩ := hw.isolates _ entry hentry
  have hordered := hw.ordered array (List.mem_of_getElem? harray) entry.classId
  have hnat : entry.classId.toNat = (classInitCount + object.isolate) % 2 ^ 32 := by
    rw [hid, BitVec.toNat_ofNat]
  rw [← hnat]
  constructor
  · rintro ⟨other, hother, heq, array', harray', hfinalizer⟩
    rw [hentry, Option.some.injEq] at hother
    subst other
    rw [harray, Option.some.injEq] at harray'
    subst array'
    rw [hstored] at heq
    rw [hstored, heq] at hfinalizer
    refine ⟨(setWidth_eq_iff _).mp heq, ?_⟩
    by_contra hsmall
    have hbuiltin := hordered.1 ⟨by omega, by omega⟩
    rw [hbuiltin] at hfinalizer
    cases hfinalizer
  · rintro ⟨hlt, hrange⟩
    have heq := (setWidth_eq_iff _).mpr hlt
    refine ⟨entry, hentry, by rw [hstored, heq], array, harray, ?_⟩
    rw [hstored, heq]
    have hnot : ¬ Predefined entry.classId := by
      rintro ⟨hpos, hsmall⟩
      omega
    rcases hordered.2 hnot with hnone | hfinalizer
    · rw [hnone] at hsome
      cases hsome
    · exact hfinalizer

/-- After any history of isolates, their objects are all found and finalized as they
should exactly when the ids of their isolates fit, which are counted from
`JS_CLASS_INIT_COUNT` on in the order the isolates were made. -/
theorem survives_iff (actions : List ClassAction) (hrun : step.run start actions = .ok w) :
    (∀ object ∈ w.objects, w.Finds object) ↔
      ∀ object ∈ w.objects, Fits ((classInitCount + object.isolate) % 2 ^ 32) := by
  have hw : Consistent w := step.run_invariant_of_step Consistent
    (fun _ _ _ hw hstep => consistent_step hw hstep) consistent_start hrun
  exact forall₂_congr fun object hobject => finds_iff hw hobject

/-- Two isolates in one runtime and a third one in its own, each with an object. -/
theorem survives_third : ∃ w, step.run start [.newRuntime, .newIsolate (some 0),
      .newIsolate (some 0), .newIsolate none, .construct 2, .construct 1, .construct 0] = .ok w ∧
    ((∀ object ∈ w.objects, w.Finds object) ↔
      ∀ object ∈ w.objects, Fits ((classInitCount + object.isolate) % 2 ^ 32)) :=
  ⟨_, rfl, survives_iff [.newRuntime, .newIsolate (some 0), .newIsolate (some 0),
    .newIsolate none, .construct 2, .construct 1, .construct 0] rfl⟩

/-- Isolates can be made without end. -/
theorem exists_newIsolates (n : Nat) (w : ClassWorld)
    (hlive : ∀ entry ∈ w.isolates, entry.disposed = false) :
    ∃ final, step.run w (List.replicate n (.newIsolate none)) = .ok final ∧
      final.isolates.length = w.isolates.length + n ∧ final.objects = w.objects ∧
      ∀ entry ∈ final.isolates, entry.disposed = false := by
  induction n generalizing w with
  | zero => exact ⟨w, rfl, rfl, rfl, hlive⟩
  | succ n ih =>
      let next := register { w with runtimes := w.runtimes ++ [ClassArray.new] } w.runtimes.length
      have hnext : ∀ entry ∈ next.isolates, entry.disposed = false := by
        intro entry hentry
        rcases List.mem_append.mp hentry with hold | hnew
        · exact hlive entry hold
        · rw [List.mem_singleton.mp hnew]
      obtain ⟨final, hrun, hlength, hobjects, hfinal⟩ := ih next hnext
      refine ⟨final, hrun, ?_, hobjects, hfinal⟩
      rw [hlength]
      change (w.isolates ++ [_]).length + n = _
      rw [List.length_append, List.length_singleton]
      omega

/-- The objects of the isolate with id `65536` store zero. -/
theorem wide_id_is_lost : ∃ actions w object, step.run start actions = .ok w ∧ object ∈ w.objects ∧
    ¬ w.Finds object := by
  obtain ⟨w, hrun, hlength, -, hlive⟩ := exists_newIsolates 65479 start (by intro _ h; cases h)
  have hw : Consistent w := step.run_invariant_of_step Consistent
    (fun _ _ _ hw hstep => consistent_step hw hstep) consistent_start hrun
  have hlast : 65478 < w.isolates.length := by
    rw [hlength]
    exact Nat.lt_add_left _ (Nat.lt_succ_self 65478)
  have hentry := List.getElem?_eq_getElem hlast
  have hstep : step w (.construct 65478) =
      .ok { w with objects := w.objects ++ [⟨65478, w.isolates[65478].classId.setWidth 16⟩] } := by
    simp only [step, hentry, hlive _ (List.getElem_mem hlast), Bool.false_eq_true, if_false]
  refine ⟨_, _, _, (step.run_append_ok hrun [.construct 65478]).trans (step.run_cons_ok [] hstep),
    List.mem_append_right _ (List.mem_singleton_self _), fun hfinds => ?_⟩
  have hfits := (finds_iff (consistent_step hw hstep)
    (List.mem_append_right _ (List.mem_singleton_self _))).mp hfinds
  have hsmall : (classInitCount + 65478) % 2 ^ 32 < 2 ^ 16 := hfits.1
  exact absurd hsmall (by decide)

end ClassWorld

end QuickjsBackend
