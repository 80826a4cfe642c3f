import QuickjsBackend.Persistent.Weak

/-! # Reading a weak handle

A weak `Global` keeps the raw value in its `store_` and learns nothing of the
death of the object. `Get` copies the value and counts a reference on it without
looking, which is right exactly as long as the object is there and not about to be
freed. A cell that was freed is never allocated again, so a `Global` left behind
stays unusable.
-/

namespace QuickjsBackend

open Foundation

namespace World

variable {world next : World} {id : Nat} {global : Global} {action : WorldAction}

variable (world) in
/-- What `Get` owes its caller: a handle to the value, live and with one more
reference on it, or an empty handle if the object is gone. -/
def SafeGet (global : Global) : Prop :=
  match world.get global with
  | .ok (some handle, next) =>
      next.isolate.deref handle = some global.store ∧
        next.isolate.runtime.Live global.store ∧
          next.isolate.runtime.refCount = world.isolate.runtime.refCount + global.store.refs
  | .ok (none, _) => ¬ world.isolate.runtime.Live global.store
  | .error _ => False

theorem safeGet_iff_live (hwell : world.WellFormed) (hglobal : world.global id = some global)
    (hval : global.val ≠ none) :
    world.SafeGet global ↔ world.isolate.runtime.Live global.store := by
  obtain ⟨_, hvalue⟩ := hwell.toPointing.valueOf hglobal (Option.isSome_iff_ne_none.mpr hval)
  unfold SafeGet World.get
  rw [hvalue]
  by_cases hallocated : world.isolate.runtime.Allocated global.store
  · simp only [hallocated, if_true]
    constructor
    · rintro ⟨_, hlive, _⟩
      exact hlive
    · intro hlive
      exact ⟨hwell.inOrder.deref_copyToSlot global.store, hlive, rfl⟩
  · simp only [hallocated, if_false, false_iff]
    exact fun hlive => hallocated hlive.allocated

/-- A weak object that is not empty answers `Get` as it should. -/
def GetsSafely (world : World) (action : WorldAction) (_ : Except Fault World) : Prop :=
  ∀ id global, action = .global (.get id) → world.global id = some global →
    global.weak = true → global.val ≠ none → world.SafeGet global

/-- `Get` is called on a weak object only while what it points at is allocated, and
not waiting to be freed. -/
def GetsInTime (world : World) (action : WorldAction) : Prop :=
  ∀ id global, action = .global (.get id) → world.global id = some global →
    global.weak = true → global.val ≠ none → world.isolate.runtime.Live global.store

/-- In every run, each `Get` on a weak object is safe exactly as long as none
comes after the object has died. -/
theorem getsSafely_iff_inTime (actions : List WorldAction) :
    World.step.Always GetsSafely World.new actions ↔
      World.step.Always (fun world action _ => world.GetsInTime action) World.new actions := by
  refine World.step.always_iff_of_invariant WellFormed ?_
    (fun _ _ _ hwell _ hstep => hwell.step hstep) actions wellFormed_new
  intro world action hwell
  constructor
  · intro hsafe id global hget hglobal hweak hval
    exact (safeGet_iff_live hwell hglobal hval).mp (hsafe id global hget hglobal hweak hval)
  · intro hlive id global hget hglobal hweak hval
    exact (safeGet_iff_live hwell hglobal hval).mpr (hlive id global hget hglobal hweak hval)

/-- A cell that was freed stays freed. -/
theorem freed_of_run {actions : List WorldAction} {ptr : Ptr} (hwell : world.WellFormed)
    (hdata : world.isolate.runtime.DataAllocated) (hfreed : world.isolate.runtime.cell ptr = .freed)
    (hrun : World.step.run world actions = .ok next) :
    next.WellFormed ∧ next.isolate.runtime.cell ptr = .freed := by
  have hkept := World.step.run_invariant_of_step
    (fun world => world.WellFormed ∧ world.isolate.runtime.DataAllocated ∧
      world.isolate.runtime.cell ptr = .freed) ?_ ⟨hwell, hdata, hfreed⟩ hrun
  · exact ⟨hkept.1, hkept.2.2⟩
  · rintro world action next ⟨hwell, hdata, hfreed⟩ hstep
    have hfate := fate_transition hdata (transition_of_step hwell.toPointing hstep)
    refine ⟨hwell.step hstep, (prepared_dataAllocated hdata action).of_fate hfate, ?_⟩
    cases hfate ptr with
    | kept hsame => rw [hsame, prepared_cell, hfreed]
    | born hunused =>
        rw [prepared_cell, hfreed] at hunused
        cases hunused
    | condemned hlive =>
        rw [prepared_cell, hfreed] at hlive
        cases hlive
    | died hdied => exact hdied

/-- Whatever happens after the death of the object, `Get` is never safe again on
an object that points at it. -/
theorem not_safeGet_of_run {actions : List WorldAction} {ptr : Ptr} {kind : RefTag}
    (hwell : world.WellFormed) (hdata : world.isolate.runtime.DataAllocated)
    (hfreed : world.isolate.runtime.cell ptr = .freed)
    (hrun : World.step.run world actions = .ok next) (hglobal : next.global id = some global)
    (hval : global.val ≠ none) (hstore : global.store = .ref kind ptr) : ¬ next.SafeGet global := by
  obtain ⟨hnextWell, hnextFreed⟩ := freed_of_run hwell hdata hfreed hrun
  rw [safeGet_iff_live hnextWell hglobal hval, hstore, Runtime.live_ref, hnextFreed]
  simp only [reduceCtorEq, not_false_eq_true]

/-- The value goes into an object, which turns weak with the last reference. -/
def danglingRun : List WorldAction :=
  [.newInstance 0 1, .global (.constructFrom (some (.outside (.ref .object 0)))),
    .isolate (.engine (.free (.ref .object 0))), .global (.setWeak 0 1 10)]

/-- `Get` reads the freed object. -/
theorem get_after_free :
    ¬ World.step.Always GetsSafely World.new (danglingRun ++ [.global (.get 0)]) := by
  intro hsafe
  have hlast := World.step.always_iff_forall_reached.mp hsafe danglingRun (.global (.get 0)) [] _
    rfl rfl
  have hget := hlast 0 _ rfl rfl rfl (Option.some_ne_none _)
  exact hget

end World

end QuickjsBackend
