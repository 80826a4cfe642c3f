import QuickjsBackend.Persistent.Registration

/-! # Weak callbacks

The callback of a weak `Global` is kept in the user data of the object, in the
one place there is for it, while the object itself remembers only that it is
weak. The callbacks called for a dying object are those of the `Global` objects
that still hold it weakly as long as each of them has found that place empty,
and none has left before the object died.
-/

namespace QuickjsBackend

open Foundation

namespace World

variable (world : World)

/-- The runtime once `SetWeak` has written to the user data. -/
def prepared : WorldAction → Runtime
  | .global (.setWeak id callback parameter) =>
      match world.global id with
      | none => world.isolate.runtime
      | some global =>
          if global.isStrong then
            (world.setUserData global.store callback parameter).isolate.runtime
          else world.isolate.runtime
  | _ => world.isolate.runtime

variable {world} {next : World} {id : Nat} {global : Global} {action : WorldAction} {ptr : Ptr}

theorem setUserData_userData (value : JSValue) (callback parameter : Nat) :
    (world.setUserData value callback parameter).isolate.runtime.userData ptr =
      if value = .ref .object ptr then (world.isolate.runtime.userData ptr).map fun objectUdata =>
        { objectUdata with callback := some callback, parameter }
      else world.isolate.runtime.userData ptr := by
  unfold World.setUserData
  split
  next kind target objectUdata hdata =>
    -- only an object has user data
    cases kind with
    | object =>
        have hfound : world.isolate.runtime.userData target = some objectUdata := hdata
        by_cases heq : ptr = target
        · subst target
          simp [hfound]
        · have hne : JSValue.ref .object target ≠ .ref .object ptr := by simp [Ne.symm heq]
          rw [if_neg hne]
          exact Function.update_of_ne heq ..
    | _ => cases hdata
  next hnone =>
    split
    next heq =>
      subst heq
      cases hfound : world.isolate.runtime.userData ptr with
      | none => rfl
      | some objectUdata => exact absurd hfound (hnone .object ptr objectUdata rfl)
    next => rfl

theorem setUserData_setGlobal (id : Nat) (entry : Option Global) (value : JSValue)
    (callback parameter : Nat) :
    ((world.setGlobal id entry).setUserData value callback parameter).isolate =
      (world.setUserData value callback parameter).isolate := by
  have hsame : (world.setGlobal id entry).getUserData value = world.getUserData value := rfl
  unfold World.setUserData
  rw [hsame]
  split <;> rfl

theorem setUserData_cell (value : JSValue) (callback parameter : Nat) :
    (world.setUserData value callback parameter).isolate.runtime.cell =
      world.isolate.runtime.cell := by
  unfold World.setUserData
  split <;> rfl

theorem setUserData_invoked (value : JSValue) (callback parameter : Nat) :
    (world.setUserData value callback parameter).isolate.runtime.invoked =
      world.isolate.runtime.invoked := by
  unfold World.setUserData
  split <;> rfl

/-- `SetWeak` prepares the runtime by writing to the user data, or not at all. -/
theorem prepared_cases (world : World) (action : WorldAction) :
    (world.prepared action = world.isolate.runtime ∧ ∀ ptr, world.added action ptr = 0) ∨
      ∃ id callback parameter global, action = .global (.setWeak id callback parameter) ∧
        world.global id = some global ∧ global.isStrong = true ∧
          world.prepared action =
            (world.setUserData global.store callback parameter).isolate.runtime := by
  by_cases hsetWeak : ∃ id callback parameter, action = .global (.setWeak id callback parameter)
  · obtain ⟨id, callback, parameter, rfl⟩ := hsetWeak
    cases hglobal : world.global id with
    | none => exact Or.inl (by simp [prepared, added, hglobal])
    | some global =>
        cases hstrong : global.isStrong with
        | true => exact Or.inr ⟨id, callback, parameter, global, rfl, hglobal, hstrong,
            by simp [prepared, hglobal, hstrong]⟩
        | false => exact Or.inl (by simp [prepared, added, hglobal, hstrong])
  · refine Or.inl ⟨?_, fun ptr => ?_⟩
    · unfold prepared
      split
      · exact absurd ⟨_, _, _, rfl⟩ hsetWeak
      · rfl
    · unfold added
      split
      · exact absurd ⟨_, _, _, rfl⟩ hsetWeak
      · rfl

theorem prepared_cell : (world.prepared action).cell = world.isolate.runtime.cell := by
  rcases world.prepared_cases action with
    ⟨hsame, _⟩ | ⟨id, callback, parameter, global, _, _, _, hset⟩
  · rw [hsame]
  · rw [hset, setUserData_cell]

theorem prepared_calls :
    (world.prepared action).calls ptr = world.isolate.runtime.calls ptr := by
  rcases world.prepared_cases action with
    ⟨hsame, _⟩ | ⟨id, callback, parameter, global, _, _, _, hset⟩
  · rw [hsame]
  · rw [hset, Runtime.calls, setUserData_invoked, Runtime.calls]

/-- What `SetWeak` writes is there afterwards if there was room for it. -/
theorem prepared_registration :
    single ((world.prepared action).registration ptr) =
        single (world.isolate.runtime.registration ptr) + world.added action ptr ↔
      (world.added action ptr ≠ 0 → ∃ objectUdata,
        world.isolate.runtime.userData ptr = some objectUdata ∧ objectUdata.callback = none) := by
  rcases world.prepared_cases action with
    ⟨hsame, hadded⟩ | ⟨id, callback, parameter, global, rfl, hglobal, hstrong, hset⟩
  · simp [hsame, hadded ptr]
  · have hdata : (world.setUserData global.store callback parameter).isolate.runtime.userData ptr =
        _ := setUserData_userData global.store callback parameter
    rw [hset, Runtime.registration, Runtime.registration, hdata, added_setWeak hglobal hstrong,
      dueFrom]
    by_cases hstore : global.store = .ref .object ptr
    · have hstored : (global.weakened callback parameter).store = .ref .object ptr := hstore
      cases huser : world.isolate.runtime.userData ptr with
      | none => simp [hstore, Global.weakened]
      | some objectUdata => simp [hstore, Global.weakened, ObjectUserData.registration]
    · have hstored : (global.weakened callback parameter).store ≠ .ref .object ptr := hstore
      simp [hstore, hstored]

theorem prepared_dataAllocated (hdata : world.isolate.runtime.DataAllocated)
    (action : WorldAction) : (world.prepared action).DataAllocated := by
  intro ptr hcell
  rw [prepared_cell] at hcell
  rcases world.prepared_cases action with
    ⟨hsame, _⟩ | ⟨id, callback, parameter, global, _, _, _, hset⟩
  · rw [hsame]
    exact hdata ptr hcell
  · rw [hset, setUserData_userData, hdata ptr hcell]
    simp

theorem fate_giveUp (global : Global) :
    Runtime.Fate world.isolate.runtime (world.giveUp global).isolate.runtime ptr := by
  unfold World.giveUp
  split
  · exact Runtime.fate_freeValueRT global.store
  · exact Runtime.Fate.refl

end World

/-- A step of the handle layer or the engine lets at most one cell die. -/
theorem Isolate.fate_transition {isolate next : Isolate} {action : Action}
    (hdata : isolate.runtime.DataAllocated) (hnext : Isolate.Transition isolate action next)
    (ptr : Ptr) : Runtime.Fate isolate.runtime next.runtime ptr := by
  cases hnext with
  | store index below value hframes hvalue => exact Runtime.fate_produce value hdata hvalue
  | escape address handle handleScope parent value => exact Runtime.fate_dupValueRT value
  | skipLoop handleScope => exact Runtime.fate_freeValueRT handleScope.scopeValue
  | releaseSlot handleScope index => exact Runtime.fate_freeValueRT _
  | finishExit handleScope => exact Runtime.fate_freeValueRT handleScope.scopeValue
  | engine op rt others hengine =>
      cases hengine with
      | produce value hvalue => exact Runtime.fate_produce value hdata hvalue
      | free kind target => exact Runtime.fate_freeValueRT (.ref kind target)
      | condemn target => exact (Runtime.fate_condemn target).congr rfl rfl rfl
      | collect target => exact Runtime.fate_freeObject target
      | endFree => exact Runtime.Fate.refl.congr rfl rfl rfl
      | idle => exact Runtime.Fate.refl
  | _ => exact Runtime.Fate.refl

namespace World

variable {world next : World} {id : Nat} {global : Global} {action : WorldAction} {ptr : Ptr}

theorem Proceeds.fate {cont : ResetCont} (hproceeds : Proceeds world id cont next) (ptr : Ptr) :
    Runtime.Fate world.isolate.runtime next.isolate.runtime ptr := by
  cases hproceeds with
  | resetTo global handle value => exact Runtime.fate_dupValueRT value
  | _ => exact Runtime.Fate.refl

/-- What comes after `DecRef` frees nothing. -/
theorem Proceeds.fate_trans {before : Runtime} {cont : ResetCont}
    (hproceeds : Proceeds world id cont next)
    (hfate : Runtime.Fate before world.isolate.runtime ptr) :
    Runtime.Fate before next.isolate.runtime ptr := by
  cases hproceeds <;> exact hfate.congr rfl rfl rfl

theorem prepared_of_resets {op : GlobalOp} {cont : ResetCont}
    (hop : op.resets = some (id, cont)) :
    world.prepared (.global op) = world.isolate.runtime := by
  cases op with
  | setWeak => cases hop
  | _ => rfl

theorem fate_transition (hdata : world.isolate.runtime.DataAllocated)
    (hnext : Transition world action next) (ptr : Ptr) :
    Runtime.Fate (world.prepared action) next.isolate.runtime ptr := by
  cases hnext with
  | construct => exact Runtime.Fate.refl
  | constructFrom handle value => exact Runtime.fate_dupValueRT value
  | setWeak id global callback parameter hglobal hstrong =>
      have hprepared : world.prepared (.global (.setWeak id callback parameter)) =
          (world.setUserData global.store callback parameter).isolate.runtime := by
        simp [prepared, hglobal, hstrong]
      rw [hprepared, ← setUserData_setGlobal id (some (global.weakened callback parameter))]
      exact Runtime.fate_freeValueRT global.store
  | setWeakIdle id global callback parameter hglobal hstrong =>
      have hprepared : world.prepared (.global (.setWeak id callback parameter)) =
          world.isolate.runtime := by simp [prepared, hglobal, hstrong]
      rw [hprepared]
      exact Runtime.Fate.refl
  | get id global => exact Runtime.fate_dupValueRT global.store
  | moveConstructEmpty => exact Runtime.Fate.refl
  | moveConstruct => exact Runtime.Fate.refl
  | moveAssignSelf => exact Runtime.Fate.refl
  | suspend op id cont global hop =>
      rw [prepared_of_resets hop]
      exact Runtime.fate_freeValueRT global.store
  | release op id cont global next hop hglobal hlast hproceeds =>
      rw [prepared_of_resets hop]
      exact hproceeds.fate_trans (fate_giveUp global)
  | resume id cont rest next hresets hproceeds =>
      have hfate := hproceeds.fate ptr
      exact hfate
  | newInstance target internalFieldCount hunused =>
      by_cases heq : ptr = target
      · subst target
        refine .born hunused (Function.update_self ..) ?_ rfl
        simp [Runtime.registration, withInstance, ObjectUserData.registration, Wrapper.newUserData]
      · exact .kept (Function.update_of_ne heq ..) (Function.update_of_ne heq ..) rfl
  | isolate action isolate hstep =>
      exact Isolate.fate_transition hdata (Isolate.transition_of_step hstep) ptr

/-- The cell of a value that was in an object at some time has been allocated before. -/
def StoredIn (rt : Runtime) (_ : Nat) (global : Global) : Prop :=
  ∀ kind ptr, global.store = .ref kind ptr → rt.cell ptr ≠ .unused

theorem storedIn_rules (rt : Runtime) : EntryRules (StoredIn rt) rt where
  empty _ _ _ hstore := by cases hstore
  strong _ value hlive kind ptr hstore := by
    rw [hlive kind ptr hstore]
    simp
  released _ _ _ hstored := hstored
  cleared _ _ hstored := hstored
  weakened _ _ _ _ _ hstored := hstored
  takeOver _ _ _ _ hstored := hstored
  movedFrom _ _ hstored := hstored

variable (world) in
/-- Weak callbacks in a state: what is registered on an allocated object is what its
finalizer will find, and nothing has been called for it yet. -/
structure Tracked : Prop where
  registered : world.Entrywise RegisteredWeakly
  stored : world.Entrywise (StoredIn world.isolate.runtime)
  dataAllocated : world.isolate.runtime.DataAllocated
  unused : ∀ ptr, world.isolate.runtime.cell ptr = .unused → world.registrations ptr = 0
  quiet : ∀ ptr, world.isolate.runtime.cell ptr ≠ .freed → world.isolate.runtime.calls ptr = 0
  ready : ∀ ptr, (world.isolate.runtime.cell ptr).Allocated →
    single (world.isolate.runtime.registration ptr) = world.registrations ptr

theorem tracked_new : World.new.Tracked where
  registered := entrywise_new
  stored := entrywise_new
  dataAllocated _ _ := rfl
  unused _ _ := by simp [World.new, registrations]
  quiet _ _ := rfl
  ready ptr hcell := by simp [World.new, Isolate.new, Runtime.new, CellState.Allocated] at hcell

variable (world next) in
/-- Where an object dies, the callbacks called for it are those registered on it,
each as often as it is registered; nothing else is called. -/
structure CallsRegistered : Prop where
  died : ∀ ptr, (world.isolate.runtime.cell ptr).Allocated →
    next.isolate.runtime.cell ptr = .freed →
      next.isolate.runtime.calls ptr = next.registrations ptr
  other : ∀ ptr, ¬ ((world.isolate.runtime.cell ptr).Allocated ∧
      next.isolate.runtime.cell ptr = .freed) →
    next.isolate.runtime.calls ptr = world.isolate.runtime.calls ptr

/-- Should an object die now, the callbacks called for it would be those registered. -/
def LeavesReady (next : World) : Prop :=
  ∀ ptr, (next.isolate.runtime.cell ptr).Allocated →
    (next.isolate.runtime.freeObject ptr).calls ptr = next.registrations ptr

variable (world) in
/-- No object that is registered on an allocated cell is reset, re-assigned or
destroyed, and an object becomes weak only if there are user data with no
callback in them. -/
def Orderly (action : WorldAction) : Prop :=
  ∀ ptr, (world.isolate.runtime.cell ptr).Allocated → world.dropped action ptr = 0 ∧
    (world.added action ptr ≠ 0 → ∃ objectUdata,
      world.isolate.runtime.userData ptr = some objectUdata ∧ objectUdata.callback = none)

/-- Nothing is registered on a cell that is not allocated yet. -/
theorem Tracked.unused_next (htracked : world.Tracked)
    (hnext : Transition world action next) (hunused : world.isolate.runtime.cell ptr = .unused) :
    next.registrations ptr = 0 := by
  have hadded : world.added action ptr = 0 := by
    rcases world.prepared_cases action with
      ⟨_, hadded⟩ | ⟨id, callback, parameter, global, rfl, hglobal, hstrong, _⟩
    · exact hadded ptr
    · rw [added_setWeak hglobal hstrong, dueFrom]
      exact if_neg fun hstore => htracked.stored id global hglobal .object ptr hstore hunused
  have hequation := registrations_transition htracked.registered hnext ptr
  rw [htracked.unused ptr hunused, hadded, zero_add] at hequation
  exact (add_eq_zero.mp hequation).1

section Registration

variable (htracked : world.Tracked)

include htracked

/-- Nothing has been called yet for an allocated cell. -/
theorem Tracked.prepared_quiet (hallocated : (world.isolate.runtime.cell ptr).Allocated) :
    (world.prepared action).calls ptr = 0 := by
  refine prepared_calls.trans (htracked.quiet ptr fun hfreed => ?_)
  rw [hfreed] at hallocated
  exact hallocated

/-- Called for a cell that lives on will be what the user data say. -/
theorem Tracked.calls_later (hallocated : (world.isolate.runtime.cell ptr).Allocated)
    (hdata : next.isolate.runtime.userData ptr = (world.prepared action).userData ptr)
    (hcalls : next.isolate.runtime.calls ptr = (world.prepared action).calls ptr) :
    (next.isolate.runtime.freeObject ptr).calls ptr =
      single ((world.prepared action).registration ptr) := by
  rw [Runtime.freeObject_calls_self, hcalls, htracked.prepared_quiet hallocated, zero_add,
    Runtime.registration, hdata, Runtime.registration]

/-- Called for a cell that dies now has been what the user data say. -/
theorem Tracked.calls_now (hallocated : (world.isolate.runtime.cell ptr).Allocated)
    (hcalls : next.isolate.runtime.calls ptr = (world.prepared action).calls ptr +
      single ((world.prepared action).registration ptr)) :
    next.isolate.runtime.calls ptr = single ((world.prepared action).registration ptr) := by
  rw [hcalls, htracked.prepared_quiet hallocated, zero_add]

theorem Tracked.registration_eq (hnext : Transition world action next)
    (hcalls : world.CallsRegistered next) (hready : next.LeavesReady)
    (hallocated : (world.isolate.runtime.cell ptr).Allocated) :
    single ((world.prepared action).registration ptr) = next.registrations ptr := by
  have hcell : (world.prepared action).cell ptr = world.isolate.runtime.cell ptr :=
    congrFun prepared_cell ptr
  cases fate_transition htracked.dataAllocated hnext ptr with
  | kept hsame hdata hnone =>
      rw [← htracked.calls_later hallocated hdata hnone]
      exact hready ptr (by rwa [hsame, hcell])
  | born hunused =>
      rw [← hcell, hunused] at hallocated
      exact hallocated.elim
  | condemned _ hcondemned hdata hnone =>
      rw [← htracked.calls_later hallocated hdata hnone]
      exact hready ptr (by rw [hcondemned]; trivial)
  | died hfreed _ hmore =>
      rw [← htracked.calls_now hallocated hmore]
      exact hcalls.died ptr hallocated hfreed

variable (hregistration : ∀ ptr, (world.isolate.runtime.cell ptr).Allocated →
  single ((world.prepared action).registration ptr) = next.registrations ptr)

include hregistration

theorem Tracked.callsRegistered (hnext : Transition world action next) :
    world.CallsRegistered next := by
  have hfate := fate_transition htracked.dataAllocated hnext
  have hcell : ∀ ptr, (world.prepared action).cell ptr = world.isolate.runtime.cell ptr :=
    fun ptr => congrFun prepared_cell ptr
  refine ⟨fun ptr hallocated hfreed => ?_, fun ptr hother => ?_⟩
  · cases hfate ptr with
    | kept hsame =>
        rw [← hcell, ← hsame, hfreed] at hallocated
        exact hallocated.elim
    | born _ hborn =>
        rw [hborn] at hfreed
        cases hfreed
    | condemned _ hcondemned =>
        rw [hcondemned] at hfreed
        cases hfreed
    | died _ _ hmore =>
        rw [htracked.calls_now hallocated hmore, hregistration ptr hallocated]
  · cases hfate ptr with
    | kept _ _ hsame => rw [hsame, prepared_calls]
    | born _ _ _ hsame => rw [hsame, prepared_calls]
    | condemned _ _ _ hsame => rw [hsame, prepared_calls]
    | died hfreed _ hmore =>
        -- there was nothing to call for a cell that was not allocated
        have hdead : ¬ (world.isolate.runtime.cell ptr).Allocated :=
          fun hallocated => hother ⟨hallocated, hfreed⟩
        have hdata := prepared_dataAllocated htracked.dataAllocated action ptr
          (by rw [hcell]; exact hdead)
        rw [hmore, Runtime.registration, hdata, prepared_calls]
        exact add_zero _

theorem Tracked.leavesReady (hnext : Transition world action next) : next.LeavesReady := by
  intro ptr hallocated
  have hcell : (world.prepared action).cell ptr = world.isolate.runtime.cell ptr :=
    congrFun prepared_cell ptr
  cases fate_transition htracked.dataAllocated hnext ptr with
  | kept hsame hdata hnone =>
      have hbefore : (world.isolate.runtime.cell ptr).Allocated := by
        rwa [hsame, hcell] at hallocated
      rw [htracked.calls_later hbefore hdata hnone, hregistration ptr hbefore]
  | born hunused _ hnone hsame =>
      rw [hcell] at hunused
      rw [Runtime.freeObject_calls_self, hsame, prepared_calls, hnone,
        htracked.quiet ptr (by simp [hunused]), htracked.unused_next hnext hunused]
      rfl
  | condemned hlive _ hdata hnone =>
      have hbefore : (world.isolate.runtime.cell ptr).Allocated := by
        rw [← hcell, hlive]
        trivial
      rw [htracked.calls_later hbefore hdata hnone, hregistration ptr hbefore]
  | died hfreed =>
      rw [hfreed] at hallocated
      exact hallocated.elim

end Registration

theorem callsRegistered_iff_registration (htracked : world.Tracked)
    (hnext : Transition world action next) :
    world.CallsRegistered next ∧ next.LeavesReady ↔
      ∀ ptr, (world.isolate.runtime.cell ptr).Allocated →
        single ((world.prepared action).registration ptr) = next.registrations ptr := by
  constructor
  · rintro ⟨hcalls, hready⟩ ptr hallocated
    exact htracked.registration_eq hnext hcalls hready hallocated
  · intro hregistration
    exact ⟨htracked.callsRegistered hregistration hnext, htracked.leavesReady hregistration hnext⟩

/-- An action that takes a registration away adds none. -/
theorem dropped_or_prepared (world : World) (action : WorldAction) :
    (∀ ptr, world.dropped action ptr = 0) ∨
      world.prepared action = world.isolate.runtime ∧ ∀ ptr, world.added action ptr = 0 := by
  rcases world.prepared_cases action with hsame | ⟨id, callback, parameter, _, rfl, _⟩
  · exact Or.inr hsame
  · exact Or.inl fun _ => rfl

theorem callsRegistered_iff_orderly (htracked : world.Tracked)
    (hnext : Transition world action next) :
    world.CallsRegistered next ∧ next.LeavesReady ↔ world.Orderly action := by
  rw [callsRegistered_iff_registration htracked hnext]
  refine forall_congr' fun ptr => imp_congr_right fun hallocated => ?_
  have hequation := registrations_transition htracked.registered hnext ptr
  rw [← htracked.ready ptr hallocated] at hequation
  rcases world.dropped_or_prepared action with hdropped | ⟨hsame, hadded⟩
  · rw [hdropped ptr, add_zero] at hequation
    rw [hequation, prepared_registration]
    simp only [hdropped ptr, true_and]
  · rw [hadded ptr, add_zero] at hequation
    rw [hsame, ← hequation]
    simp [hadded ptr]

/-- Step lemma of weak callbacks. -/
theorem Tracked.transition (htracked : world.Tracked) (hnext : Transition world action next)
    (horderly : world.Orderly action) : next.Tracked := by
  obtain ⟨hcalls, hready⟩ := (callsRegistered_iff_orderly htracked hnext).mpr horderly
  have hfate := fate_transition htracked.dataAllocated hnext
  have hcell : ∀ ptr, (world.prepared action).cell ptr = world.isolate.runtime.cell ptr :=
    fun ptr => congrFun prepared_cell ptr
  have hunused : ∀ ptr, next.isolate.runtime.cell ptr = .unused →
      world.isolate.runtime.cell ptr = .unused := by
    intro ptr hnow
    rw [← hcell]
    cases hfate ptr with
    | kept hsame => rwa [← hsame]
    | born hbefore => exact hbefore
    | condemned _ hcondemned =>
        rw [hcondemned] at hnow
        cases hnow
    | died hfreed =>
        rw [hfreed] at hnow
        cases hnow
  have hquiet : ∀ ptr, next.isolate.runtime.cell ptr ≠ .freed →
      next.isolate.runtime.calls ptr = 0 := by
    intro ptr hnot
    rw [hcalls.other ptr fun hdied => hnot hdied.2]
    apply htracked.quiet ptr
    rw [← hcell]
    cases hfate ptr with
    | kept hsame => rwa [← hsame]
    | born hunused => simp [hunused]
    | condemned hlive => simp [hlive]
    | died hfreed => exact absurd hfreed hnot
  have hstored : world.Entrywise (StoredIn next.isolate.runtime) := fun id global hglobal kind ptr
      hstore hnow => htracked.stored id global hglobal kind ptr hstore (hunused ptr hnow)
  refine
    { registered := htracked.registered.transition (registeredWeak_rules _) hnext
      stored := hstored.transition (storedIn_rules _) hnext
      dataAllocated := (prepared_dataAllocated htracked.dataAllocated action).of_fate hfate
      unused := fun ptr hnow => htracked.unused_next hnext (hunused ptr hnow)
      quiet := hquiet
      ready := fun ptr hallocated => ?_ }
  have hnow := hready ptr hallocated
  rw [Runtime.freeObject_calls_self, hquiet ptr ?_, zero_add] at hnow
  · exact hnow
  · intro hfreed
    rw [hfreed] at hallocated
    exact hallocated

/-- Every accepted step makes the calls that are due. -/
def CallsEachOnce (world : World) (_ : WorldAction) (outcome : Except Fault World) : Prop :=
  ∀ next, outcome = .ok next → world.CallsRegistered next

/-- Every accepted step leaves the objects so that the calls due later will be made. -/
def StaysReady (_ : World) (_ : WorldAction) (outcome : Except Fault World) : Prop :=
  ∀ next, outcome = .ok next → next.LeavesReady

/-- In every run that is accepted, the weak callbacks called are those of the
objects still holding what died as long as every step is orderly. A step that is not
leaves an object so that its death would go wrong, if it is not one itself. -/
theorem callsEachOnce_iff_orderly {actions : List WorldAction} {final : World}
    (hrun : World.step.run World.new actions = .ok final) :
    World.step.Always CallsEachOnce World.new actions ∧
        World.step.Always StaysReady World.new actions ↔
      World.step.Always (fun world action _ => world.Orderly action) World.new actions := by
  rw [World.step.always_and_iff]
  refine World.step.always_iff_within (fun world => world.WellFormed ∧ world.Tracked) ?_ ?_
    ⟨wellFormed_new, tracked_new⟩ (World.step.always_ok_of_run hrun)
  · rintro world action ⟨hwell, htracked⟩ ⟨next, hstep⟩
    have hnext := transition_of_step hwell.toPointing hstep
    rw [hstep, ← callsRegistered_iff_orderly htracked hnext]
    constructor
    · rintro ⟨hcalls, hready⟩
      exact ⟨hcalls next rfl, hready next rfl⟩
    · rintro ⟨hcalls, hready⟩
      refine ⟨?_, ?_⟩
      · rintro _ ⟨⟩
        exact hcalls
      · rintro _ ⟨⟩
        exact hready
  · rintro world action next ⟨hwell, htracked⟩ horderly _ hstep
    exact ⟨hwell.step hstep,
      htracked.transition (transition_of_step hwell.toPointing hstep) horderly⟩

/-- Two objects become weak on one instance, each with a callback, and the engine
drops the last reference to it. -/
def twoWeakRun : List WorldAction :=
  [.newInstance 0 1, .global (.constructFrom (some (.outside (.ref .object 0)))),
    .global (.constructFrom (some (.outside (.ref .object 0)))),
    .global (.setWeak 0 1 10), .global (.setWeak 1 2 20),
    .isolate (.engine (.free (.ref .object 0)))]

/-- One object becomes weak on an instance, which then dies. -/
def oneWeakRun : List WorldAction :=
  [.newInstance 0 1, .global (.constructFrom (some (.outside (.ref .object 0)))),
    .global (.setWeak 0 1 10), .isolate (.engine (.free (.ref .object 0)))]

theorem callsEachOnce_iff_orderly_oneWeak :
    World.step.Always CallsEachOnce World.new oneWeakRun ∧
        World.step.Always StaysReady World.new oneWeakRun ↔
      World.step.Always (fun world action _ => world.Orderly action) World.new oneWeakRun :=
  callsEachOnce_iff_orderly rfl

/-- Only the callback registered last is called. -/
theorem two_weak_one_called :
    ¬ World.step.Always CallsEachOnce World.new twoWeakRun := by
  intro hcalls
  have hlast := World.step.always_iff_forall_reached.mp hcalls (twoWeakRun.take 5)
    (.isolate (.engine (.free (.ref .object 0)))) [] _ rfl rfl
  have hdied := congrArg Multiset.card ((hlast _ rfl).died 0 trivial rfl)
  have hone : (1 : Nat) = 2 := hdied
  omega

end World

end QuickjsBackend
