import QuickjsBackend.Handle.Liveness
import QuickjsBackend.Persistent.Dangling

/-! # Handles over whole runs

Scopes open and close, API calls allocate before they run code that re-enters the
library, weak callbacks run while a scope closes, and `Get` copies into slots. In
all of it a handle keeps its slot and its value until the `HandleScope::Exit` of its
own scope, and what is below a scope is out of reach from inside. The reference that
goes with it is taken away by those who have given up one that was not theirs: a
construct call that returns its `this_`, a `Global` that is told twice to give its
reference up, a `Get` that counts one on an object about to be freed.
-/

namespace QuickjsBackend

open Foundation

namespace World

/-- The wrapper of a function whose template asks for no internal fields returns. -/
def returnStep : StepFn World JSValue Fault := fun world value =>
  (world.isolate.returnStep value).map fun isolate => { world with isolate }

/-- A step of the persistent handles and all below, or the return of a `this_`. -/
def callStep : StepFn World (WorldAction ⊕ JSValue) Fault := World.step.sum returnStep

variable (world : World)

/-- The slot of the handle an action makes. -/
def allocates : WorldAction ⊕ JSValue → Option Nat
  | .inl (.isolate (.handle .alloc)) | .inl (.global (.get _)) => some world.isolate.valueAllocPos
  | _ => none

/-- The action is one of the handle layer, of the given kind. -/
def Performs (kind : Isolate → Action → Prop) : WorldAction ⊕ JSValue → Prop
  | .inl (.isolate action) => kind world.isolate action
  | _ => False

/-- No step along the actions is of the kind. -/
def Never (kind : Isolate → Action → Prop) (actions : List (WorldAction ⊕ JSValue)) : Prop :=
  callStep.Always (fun world action _ => ¬ world.Performs kind action) world actions

/-- From one state to a later one the slot stays in use, no new handle gets it,
and only the API call that reserved it has written to it. -/
structure Keeps (slot : Nat) (final : World) : Prop where
  inUse : slot < final.isolate.valueAllocPos
  distinct : ∀ action other, final.allocates action = some other → other ≠ slot
  reserved : Reserved slot final.isolate.frames → Reserved slot world.isolate.frames
  value : (Reserved slot world.isolate.frames → Reserved slot final.isolate.frames) →
    final.isolate.values[slot]? = world.isolate.values[slot]?

/-- A handle is kept until the `Exit` of its own scope is over, and owns what was
stored in its slot until that `Exit` comes to it. -/
def KeepsHandles : Prop :=
  ∀ action slot allocated filling filled during final,
    world.allocates action = some slot → callStep world action = .ok allocated →
    callStep.run allocated filling = .ok filled → callStep.run filled during = .ok final →
    allocated.Never (fun isolate => isolate.EndsScope (ownScope world.isolate.frames)) filling →
    filled.Never (fun isolate => isolate.EndsScope (ownScope world.isolate.frames)) during →
      filled.Keeps slot final ∧
        (allocated.Never
            (fun isolate => isolate.ReleasesSlot (ownScope world.isolate.frames) slot) filling →
          filled.Never
            (fun isolate => isolate.ReleasesSlot (ownScope world.isolate.frames) slot) during →
            ¬ Reserved slot final.isolate.frames → slot ∈ final.isolate.liveSlots)

/-- As long as a scope is on the stack, the slots below its position keep their
values and the handles there what they own. -/
def KeepsOutside : Prop :=
  ∀ address handleScope slot inside final,
    scopeAt address world.isolate.frames = some handleScope → slot < handleScope.prevPos →
    callStep.run world inside = .ok final →
    world.Never (fun isolate => isolate.PopsScope address) inside →
      final.isolate.values[slot]? = world.isolate.values[slot]? ∧
        (slot ∈ final.isolate.liveSlots ↔ slot ∈ world.isolate.liveSlots)

/-- The engine counts a reference for each handle that owns one, besides those of the
other owners, and what the handles denote is there. -/
structure CountsHandles : Prop where
  counted : world.isolate.others + ∑ slot ∈ world.isolate.liveSlots,
    (world.isolate.values.getD slot .undefined).refs ≤ world.isolate.runtime.refCount
  live : ∀ slot ∈ world.isolate.liveSlots,
    world.isolate.runtime.Live (world.isolate.values.getD slot .undefined)

/-- Nothing is released by one who does not own it, and nothing is taken from an object
about to be freed. -/
def Sound : WorldAction ⊕ JSValue → Prop
  | .inl action => ¬ world.Reenters action ∧ ∀ id global, action = .global (.get id) →
      world.global id = some global → world.isolate.runtime.Live global.store
  | .inr value => value.hasRefCount = false

variable {world} {next final : World} {action : WorldAction ⊕ JSValue}
variable {actions : List (WorldAction ⊕ JSValue)}
variable {slot address : Nat} {owner : Option Nat} {origin : Isolate}

theorem eq_of_returnStep {value : JSValue} (hstep : world.returnStep value = .ok next) :
    next = { world with isolate := world.isolate.returnThis value } := by
  unfold returnStep at hstep
  cases hreturn : world.isolate.returnStep value with
  | error fault => simp only [hreturn, Except.map, reduceCtorEq] at hstep
  | ok isolate =>
      simp only [hreturn, Except.map, Except.ok.injEq] at hstep
      rw [← hstep, (Isolate.eq_of_returnStep hreturn).2]

/-- What an operation does to the slots and the stack: a step of the handle layer,
a copy in a slot, or nothing. -/
theorem handles_of_callStep (hpointing : world.Pointing)
    (hstep : callStep world action = .ok next) :
    (∃ op, action = .inl (.isolate op) ∧ Isolate.Transition world.isolate op next.isolate) ∨
      (∃ id value, action = .inl (.global (.get id)) ∧
        next.isolate = world.isolate.copyToSlot value) ∨
      world.SameSlots next ∧ world.allocates action = none := by
  cases action with
  | inl action =>
      rcases handles_of_transition (transition_of_step hpointing hstep) with
        ⟨op, rfl, hop⟩ | ⟨id, global, rfl, _, hcopy⟩ | ⟨hsame, hisolate, hget⟩
      · exact Or.inl ⟨op, rfl, hop⟩
      · exact Or.inr (Or.inl ⟨id, global.store, rfl, by rw [hcopy, World.clone]⟩)
      · refine Or.inr (Or.inr ⟨hsame, ?_⟩)
        unfold allocates
        split
        next heq => exact absurd (Sum.inl.inj heq) (hisolate _)
        next heq => exact absurd (Sum.inl.inj heq) (hget _)
        next => rfl
  | inr value =>
      rw [eq_of_returnStep hstep]
      exact Or.inr (Or.inr ⟨⟨rfl, rfl, rfl⟩, rfl⟩)

theorem WellFormed.callStep (hwell : world.WellFormed) (hstep : callStep world action = .ok next) :
    next.WellFormed := by
  cases action with
  | inl action => exact hwell.step hstep
  | inr value =>
      rw [eq_of_returnStep hstep]
      exact ⟨⟨hwell.ownStore, hwell.isolate⟩, ⟨hwell.inOrder.bounded, hwell.inOrder.inRange⟩,
        hwell.releasedRef⟩

theorem tracked_step (htracked : Isolate.Tracked origin slot owner world.isolate)
    (hopen : ¬ world.Performs (fun isolate => isolate.EndsScope owner) action)
    (hpointing : world.Pointing) (hstep : callStep world action = .ok next) :
    Isolate.Tracked origin slot owner next.isolate := by
  rcases handles_of_callStep hpointing hstep with
    ⟨op, rfl, hop⟩ | ⟨id, value, rfl, hcopy⟩ | ⟨hsame, _⟩
  · exact htracked.transition hopen hop
  · rw [hcopy]
    exact htracked.copyToSlot value
  · exact htracked.congr hsame.values hsame.valueAllocPos hsame.frames

theorem released_step (htracked : Isolate.Tracked origin slot owner world.isolate)
    (hkept : ¬ world.Performs (fun isolate => isolate.ReleasesSlot owner slot) action)
    (hpointing : world.Pointing) (hstep : callStep world action = .ok next)
    (hreleased : Released slot next.isolate.frames) : Released slot world.isolate.frames := by
  rcases handles_of_callStep hpointing hstep with
    ⟨op, rfl, hop⟩ | ⟨id, value, rfl, hcopy⟩ | ⟨hsame, _⟩
  · exact Isolate.released_transition htracked.belongs htracked.inUse hkept hop hreleased
  · rw [hcopy] at hreleased
    exact hreleased
  · rw [hsame.frames] at hreleased
    exact hreleased

theorem sheltered_step (hsheltered : Isolate.Sheltered origin slot address world.isolate)
    (hkept : ¬ world.Performs (fun isolate => isolate.PopsScope address) action)
    (hpointing : world.Pointing) (hstep : callStep world action = .ok next) :
    Isolate.Sheltered origin slot address next.isolate := by
  rcases handles_of_callStep hpointing hstep with
    ⟨op, rfl, hop⟩ | ⟨id, value, rfl, hcopy⟩ | ⟨hsame, _⟩
  · exact hsheltered.transition hkept hop
  · rw [hcopy]
    exact hsheltered.copyToSlot value
  · exact hsheltered.congr hsame.values hsame.valueAllocPos hsame.frames

theorem tracked_of_run (hwell : world.WellFormed)
    (htracked : Isolate.Tracked origin slot owner world.isolate)
    (hopen : world.Never (fun isolate => isolate.EndsScope owner) actions)
    (hrun : callStep.run world actions = .ok final) :
    final.WellFormed ∧ Isolate.Tracked origin slot owner final.isolate := by
  refine callStep.run_invariant
    (fun world action => ¬ world.Performs (fun isolate => isolate.EndsScope owner) action)
    (fun world => world.WellFormed ∧ Isolate.Tracked origin slot owner world.isolate)
    ?_ ⟨hwell, htracked⟩ hopen hrun
  rintro world action next ⟨hwell, htracked⟩ hguard hstep
  exact ⟨hwell.callStep hstep, tracked_step htracked hguard hwell.toPointing hstep⟩

theorem not_released_of_run (hwell : world.WellFormed)
    (htracked : Isolate.Tracked origin slot owner world.isolate)
    (hheld : ¬ Released slot world.isolate.frames)
    (hopen : world.Never (fun isolate => isolate.EndsScope owner) actions)
    (hkept : world.Never (fun isolate => isolate.ReleasesSlot owner slot) actions)
    (hrun : callStep.run world actions = .ok final) : ¬ Released slot final.isolate.frames := by
  have hfinal := callStep.run_invariant
    (fun world action => ¬ world.Performs (fun isolate => isolate.EndsScope owner) action ∧
      ¬ world.Performs (fun isolate => isolate.ReleasesSlot owner slot) action)
    (fun world => (world.WellFormed ∧ Isolate.Tracked origin slot owner world.isolate) ∧
      ¬ Released slot world.isolate.frames)
    ?_ ⟨⟨hwell, htracked⟩, hheld⟩ (callStep.always_and hopen hkept) hrun
  · exact hfinal.2
  · rintro world action next ⟨⟨hwell, htracked⟩, hheld⟩ ⟨hguard, hkept⟩ hstep
    exact ⟨⟨hwell.callStep hstep, tracked_step htracked hguard hwell.toPointing hstep⟩,
      fun hreleased => hheld (released_step htracked hkept hwell.toPointing hstep hreleased)⟩

theorem sheltered_of_run (hwell : world.WellFormed)
    (hsheltered : Isolate.Sheltered origin slot address world.isolate)
    (hkept : world.Never (fun isolate => isolate.PopsScope address) actions)
    (hrun : callStep.run world actions = .ok final) :
    Isolate.Sheltered origin slot address final.isolate := by
  have hfinal := callStep.run_invariant
    (fun world action => ¬ world.Performs (fun isolate => isolate.PopsScope address) action)
    (fun world => world.WellFormed ∧ Isolate.Sheltered origin slot address world.isolate)
    ?_ ⟨hwell, hsheltered⟩ hkept hrun
  · exact hfinal.2
  · rintro world action next ⟨hwell, hsheltered⟩ hguard hstep
    exact ⟨hwell.callStep hstep, sheltered_step hsheltered hguard hwell.toPointing hstep⟩

/-- A new handle is in a slot of the innermost scope. -/
theorem tracked_of_allocates (hwell : world.WellFormed) (hslot : world.allocates action = some slot)
    (hstep : callStep world action = .ok next) :
    Isolate.Tracked next.isolate slot (ownScope world.isolate.frames) next.isolate ∧
      ¬ Released slot next.isolate.frames := by
  have horder := hwell.inOrder
  have hnone : ¬ Released world.isolate.valueAllocPos world.isolate.frames := fun hreleased =>
    absurd (horder.bounded.lt_of_released hreleased) (lt_irrefl _)
  rcases handles_of_callStep hwell.toPointing hstep with
    ⟨op, rfl, hop⟩ | ⟨id, value, rfl, hcopy⟩ | ⟨_, hnothing⟩
  · generalize next.isolate = isolate at hop ⊢
    cases hop with
    | alloc =>
        cases hslot
        refine ⟨horder.tracked_alloc, fun hreleased => ?_⟩
        rcases (List.exists_mem_cons_iff _ _ _).mp hreleased with htop | hbelow
        · exact htop
        · exact hnone hbelow
    | _ => cases hslot
  · cases hslot
    rw [hcopy]
    exact ⟨horder.tracked_copyToSlot value, hnone⟩
  · rw [hnothing] at hslot
    cases hslot

theorem WellFormed.keepsHandles (hwell : world.WellFormed) : world.KeepsHandles := by
  intro action slot allocated filling filled during final hslot hstep hfilling hduring hopen hstill
  obtain ⟨hstart, hheld⟩ := tracked_of_allocates hwell hslot hstep
  obtain ⟨hfilledWell, hfilled⟩ := tracked_of_run (hwell.callStep hstep) hstart hopen hfilling
  have hrestart := Isolate.Tracked.start hfilled.inOrder hfilled.belongs hfilled.inUse
  obtain ⟨_, hfinal⟩ := tracked_of_run hfilledWell hrestart hstill hduring
  refine ⟨⟨hfinal.inUse, ?_, hfinal.reserved, hfinal.value⟩, fun hkept hkeptStill hreserved => ?_⟩
  · intro other index hindex
    have hinUse := hfinal.inUse
    unfold allocates at hindex
    split at hindex
    · cases hindex
      omega
    · cases hindex
      omega
    · cases hindex
  · have hbefore := not_released_of_run (hwell.callStep hstep) hstart hheld hopen hkept hfilling
    have hafter := not_released_of_run hfilledWell hrestart hbefore hstill hkeptStill hduring
    exact Isolate.mem_liveSlots.mpr ⟨hfinal.inUse, fun hwithheld => hwithheld.elim hreserved hafter⟩

theorem WellFormed.keepsOutside (hwell : world.WellFormed) : world.KeepsOutside := by
  intro address handleScope slot inside final hscope hslot hrun hkept
  have hstart : Isolate.Sheltered world.isolate slot address world.isolate :=
    ⟨hwell.inOrder, ⟨handleScope, hscope, hslot⟩, rfl, Iff.rfl⟩
  have hfinal := sheltered_of_run hwell hstart hkept hrun
  refine ⟨hfinal.value, ?_⟩
  rw [Isolate.mem_liveSlots, Isolate.mem_liveSlots, hfinal.withheld]
  exact and_congr_left fun _ => iff_of_true hfinal.inUse hstart.inUse


section Counts

theorem counted_decRef (hcounted : world.isolate.Counted) (value : JSValue) :
    (world.decRef value).isolate.Counted :=
  hcounted.releaseHeld value rfl rfl

theorem counted_giveUp (hcounted : world.isolate.Counted) (global : Global) :
    (world.giveUp global).isolate.Counted := by
  unfold World.giveUp
  split
  · exact counted_decRef hcounted global.store
  · exact hcounted

theorem counted_incRef (hcounted : world.isolate.Counted) {value : JSValue}
    (hlive : world.isolate.runtime.Live value) : (world.incRef value).isolate.Counted :=
  hcounted.take (fun _ h => h) (fun _ => hlive.of_refs_pos) rfl
    (Isolate.held_take (Runtime.dupValueRT_refCount value) rfl)

theorem counted_setUserData (hcounted : world.isolate.Counted) (value : JSValue)
    (callback parameter : Nat) :
    (world.setUserData value callback parameter).isolate.Counted := by
  unfold World.setUserData
  split
  · exact ⟨hcounted.others_nonneg, hcounted.live⟩
  · exact hcounted

theorem Proceeds.counted {id : Nat} {cont : ResetCont} (hproceeds : Proceeds world id cont next)
    (hcounted : world.isolate.Counted) : next.isolate.Counted := by
  cases hproceeds with
  | resetTo global handle value hglobal hderef hlive => exact counted_incRef hcounted hlive
  | _ => exact hcounted

theorem counted_withInstance (hcounted : world.isolate.Counted) {ptr : Ptr}
    (hunused : world.isolate.runtime.cell ptr = .unused) (internalFieldCount : Nat) :
    (world.withInstance ptr internalFieldCount).isolate.Counted := by
  have hvalue : world.isolate.runtime.Available (.ref .object ptr) := by
    rintro _ _ ⟨⟩
    exact Or.inl hunused
  have hproduce := hcounted.engine (.produce (.ref .object ptr) hvalue)
  exact ⟨hproduce.others_nonneg, hproduce.live⟩

/-- References are counted, and to live objects, as long as `Get` reads live ones. -/
theorem counted_transition {action : WorldAction} (hcounted : world.isolate.Counted)
    (hread : ∀ id global, action = .global (.get id) → world.global id = some global →
      world.isolate.runtime.Live global.store)
    (hnext : Transition world action next) : next.isolate.Counted := by
  cases hnext with
  | constructFrom handle value hderef hlive => exact counted_incRef hcounted hlive
  | setWeak id global callback parameter =>
      have hmarked : (world.setGlobal id
          (some (global.weakened callback parameter))).isolate.Counted := hcounted
      exact counted_decRef (counted_setUserData hmarked _ _ _) _
  | get id global hglobal => exact hcounted.copyToSlot (hread id global rfl hglobal)
  | suspend op id cont global => exact counted_decRef hcounted global.store
  | release op id cont global next hop hglobal hlast hproceeds =>
      exact hproceeds.counted (counted_giveUp hcounted global)
  | resume id cont rest next hresets hproceeds => exact hproceeds.counted hcounted
  | newInstance ptr internalFieldCount hunused =>
      exact counted_withInstance hcounted hunused internalFieldCount
  | isolate action isolate hstep =>
      exact hcounted.transition (Isolate.transition_of_step hstep)
  | _ => exact hcounted

theorem leaked_nonneg (action : WorldAction) : 0 ≤ world.leaked action := by
  unfold leaked
  split
  · split
    · exact entryRefs_nonneg _
    · exact le_refl 0
  · exact le_refl 0

theorem spare_nonneg_transition {action : WorldAction} (horder : world.isolate.InOrder)
    (hspare : 0 ≤ world.spare) (hkeeps : ¬ world.Reenters action)
    (hnext : Transition world action next) : 0 ≤ next.spare := by
  by_cases hisolate : ∃ op, action = .isolate op
  · obtain ⟨op, rfl⟩ := hisolate
    exact spare_nonneg_isolate horder hspare hnext
  · have hsame := spare_transition horder hnext (fun op heq => hisolate ⟨op, heq⟩)
    rw [overReleased_eq_zero hkeeps, add_zero] at hsame
    rw [hsame]
    exact add_nonneg hspare (leaked_nonneg action)

variable (world) in
/-- The invariant of sound runs. -/
structure Backed : Prop extends WellFormed world where
  counted : world.isolate.Counted
  spare_nonneg : 0 ≤ world.spare

theorem backed_new : World.new.Backed where
  toWellFormed := wellFormed_new
  counted := Isolate.counted_new
  spare_nonneg := owning_new.spare_nonneg

/-- Step lemma of the counts. -/
theorem Backed.step (hbacked : world.Backed) (hsound : world.Sound action)
    (hstep : callStep world action = .ok next) : next.Backed := by
  have hwell := hbacked.toWellFormed.callStep hstep
  cases action with
  | inl action =>
      have hnext := transition_of_step hbacked.toPointing hstep
      exact ⟨hwell, counted_transition hbacked.counted hsound.2 hnext,
        spare_nonneg_transition hbacked.inOrder hbacked.spare_nonneg hsound.1 hnext⟩
  | inr value =>
      have hnone : value.refs = 0 := JSValue.refs_eq_zero_iff.mpr hsound
      have hothers : world.isolate.others + value.refs = world.isolate.others := by
        rw [hnone, add_zero]
      have hsame : world.isolate.returnThis value = world.isolate := by
        simp only [Isolate.returnThis, hothers]
      rw [eq_of_returnStep hstep, hsame]
      exact hbacked

/-- Run lemma of the counts. -/
theorem backed_of_run
    (hsound : callStep.Always (fun world action _ => world.Sound action) World.new actions)
    (hrun : callStep.run World.new actions = .ok world) : world.Backed :=
  callStep.run_invariant Sound Backed
    (fun _ _ _ hbacked hsound hstep => hbacked.step hsound hstep) backed_new hsound hrun

theorem strongRefs_nonneg (globals : List (Option Global)) : 0 ≤ strongRefs globals :=
  span_nonneg entryRefs_nonneg

theorem Backed.countsHandles (hbacked : world.Backed) : world.CountsHandles := by
  have hspare := hbacked.spare_nonneg
  rw [spare, sub_nonneg] at hspare
  have howned : world.isolate.owned ≤ world.isolate.held :=
    sub_nonneg.mp ((strongRefs_nonneg _).trans hspare)
  have hsum : ∑ slot ∈ world.isolate.liveSlots, (world.isolate.values.getD slot .undefined).refs ≤
      world.isolate.held := hbacked.inOrder.sum_liveSlots_le.trans howned
  refine ⟨?_, fun slot hslot => ?_⟩
  · rw [Isolate.held, le_sub_iff_add_le'] at hsum
    exact hsum
  · have hone : (world.isolate.values.getD slot .undefined).refs ≤ _ :=
      Finset.single_le_sum (fun other _ => JSValue.refs_nonneg
        (world.isolate.values.getD other .undefined)) hslot
    exact (hbacked.counted.of_refs_le (hone.trans hsum)).1

/-- A strong object outside of `Reset()` keeps its cell alive. -/
theorem Backed.live_of_owns (hbacked : world.Backed) {id : Nat} {global : Global}
    (hglobal : world.global id = some global) (howns : global.owns = true) :
    world.isolate.runtime.Live global.store := by
  have hentry : entryRefs (world.global id) ≤ strongRefs world.globals :=
    le_span entryRefs_nonneg (Nat.zero_le id) (lt_length_of_global hglobal)
  rw [hglobal] at hentry
  simp only [entryRefs, howns, if_true] at hentry
  have hspare := hbacked.spare_nonneg
  rw [spare, sub_nonneg, le_sub_iff_add_le'] at hspare
  apply (hbacked.counted.of_refs_le _).1
  calc global.store.refs ≤ strongRefs world.globals := hentry
    _ ≤ world.isolate.owned + strongRefs world.globals :=
        le_add_of_nonneg_left world.isolate.owned_nonneg
    _ ≤ world.isolate.held := hspare

/-- In a sound run, a strong object answers `Get`. -/
theorem Backed.safeGet (hbacked : world.Backed) {id : Nat} {global : Global}
    (hglobal : world.global id = some global) (howns : global.owns = true) :
    world.SafeGet global := by
  have hval : global.val ≠ none := by
    intro hnone
    simp [Global.owns, Global.isStrong, hnone] at howns
  exact (safeGet_iff_live hbacked.toWellFormed hglobal hval).mpr
    (hbacked.live_of_owns hglobal howns)

end Counts

/-- Handle liveness: over every sound run handles stay as they are and keep their
references up to the `Exit` of their own scopes, and what happens inside a scope does not
reach below it. -/
theorem handles_live_of_sound
    (hsound : callStep.Always (fun world action _ => world.Sound action) World.new actions)
    (hrun : callStep.run World.new actions = .ok world) :
    world.KeepsHandles ∧ world.KeepsOutside ∧ world.CountsHandles := by
  have hbacked := backed_of_run hsound hrun
  exact ⟨hbacked.keepsHandles, hbacked.keepsOutside, hbacked.countsHandles⟩

/-- In an open scope, a `Global` is made of a handle. -/
def copiedRun : List (WorldAction ⊕ JSValue) :=
  Isolate.nested.map (fun action => .inl (.isolate action)) ++
    [.inl (.global (.constructFrom (some (.slot 0))))]

/-- The object is copied back into a handle. -/
theorem handles_live_copied :
    ∃ world, callStep.run World.new (copiedRun ++ [.inl (.global (.get 0))]) = .ok world ∧
      world.KeepsHandles ∧ world.KeepsOutside ∧ world.CountsHandles := by
  have hmiddle : callStep.run World.new copiedRun = .ok _ := rfl
  have hrun : callStep.run World.new (copiedRun ++ [.inl (.global (.get 0))]) = .ok _ := rfl
  have hmade : ∀ action ∈ copiedRun, ∀ world : World, world.Sound action := by
    intro action haction world
    rcases List.mem_append.mp haction with hnested | hlast
    · obtain ⟨op, _, rfl⟩ := List.mem_map.mp hnested
      exact ⟨by simp [Reenters], by simp⟩
    · cases List.mem_singleton.mp hlast
      exact ⟨by simp [Reenters, GlobalOp.givesUp, GlobalOp.resets], by simp⟩
  have hfirst : callStep.Always (fun world action _ => world.Sound action) World.new copiedRun :=
    callStep.always_mono (fun world action _ hsound => hsound world) (callStep.always_of_mem hmade)
  refine ⟨_, hrun, handles_live_of_sound (callStep.always_append hmiddle hfirst ?_) hrun⟩
  refine ⟨⟨by simp [Reenters, GlobalOp.givesUp, GlobalOp.resets], ?_⟩, fun _ _ => trivial⟩
  rintro _ _ ⟨⟩ ⟨⟩ _ _ ⟨⟩
  rfl

/-- With a handle to an object in the outer scope, the function of a template without
internal fields is called on the object in an inner one. The result goes into a slot, and
the inner scope closes. -/
def thisRun : List (WorldAction ⊕ JSValue) :=
  [.inl (.isolate (.handle (.openScope false))), .inl (.isolate (.handle .alloc)),
    .inl (.isolate (.handle (.store (.ref .object 0)))),
    .inl (.isolate (.handle (.openScope false))), .inl (.isolate (.handle .alloc)),
    .inr (.ref .object 0), .inl (.isolate (.handle (.store (.ref .object 0)))),
    .inl (.isolate (.engine (.free (.ref .object 0)))), .inl (.isolate (.handle .beginExit)),
    .inl (.isolate (.handle .releaseSlot))]

/-- The inner scope has released the reference of the outer handle. -/
theorem unowned_this_frees :
    ∃ world, callStep.run World.new thisRun = .ok world ∧ 0 ∈ world.isolate.liveSlots ∧
      world.isolate.values[0]? = some (.ref .object 0) ∧
        world.isolate.runtime.cell 0 = .freed ∧ ¬ world.CountsHandles := by
  refine ⟨_, rfl, by decide, rfl, rfl, fun hcounts => ?_⟩
  have hlive := hcounts.live 0 (by decide) .object 0 rfl
  cases hlive

end World

end QuickjsBackend
