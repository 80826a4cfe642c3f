import QuickjsBackend.Handle.Accounting

/-! # The invariant of the handle layer

Every step balances: what the counts gain or lose besides the references of the
other owners (`held`) is what the slots and parking fields gain or give up
(`owned`), up to the references a step takes out of account without releasing
them (`lost`). The invariant follows in every run, whatever escapes and weak
callbacks do: recorded positions are in order, and every owned reference is
counted, and of a live cell.
-/

namespace QuickjsBackend

open Foundation

namespace Isolate

variable (isolate : Isolate)

/-- References a scope destructor will still release, or that a slot outside
every scope holds. -/
def owned : Ptr → Int :=
  liveRefs isolate.values isolate.frames isolate.valueAllocPos + parkedRefs isolate.frames

/-- References the step drops out of account while their count stays up: a
parked value that another escape overwrites, and handles a weak callback has
left above the slots that `HandleScope::Exit` set out to release. -/
def lost : Action → Ptr → Int
  | .handle (.escape address handle) =>
      match (scopeAt address isolate.frames).bind HandleScope.prevScope, isolate.deref handle with
      | some parent, some value => displacedRefs parent value isolate.frames
      | _, _ => 0
  | .handle .finishExit =>
      match isolate.frames with
      | .scope handleScope :: _ =>
          match handleScope.phase with
          | .exiting _ stop => slotRefs isolate.values stop isolate.valueAllocPos
          | _ => 0
      | _ => 0
  | _ => 0

/-- The recorded positions are in order and in range. -/
structure InOrder : Prop where
  bounded : Bounded isolate.frames isolate.valueAllocPos
  inRange : isolate.valueAllocPos ≤ isolate.values.length

variable {isolate} {next : Isolate} {action : Action}

theorem inOrder_new : Isolate.new.InOrder := ⟨trivial, le_refl 0⟩

theorem InOrder.congr (horder : isolate.InOrder) (hvalues : next.values = isolate.values)
    (hpos : next.valueAllocPos = isolate.valueAllocPos) (hframes : next.frames = isolate.frames) :
    next.InOrder := by
  refine ⟨?_, ?_⟩
  · rw [hframes, hpos]
    exact horder.bounded
  · rw [hvalues, hpos]
    exact horder.inRange

theorem InOrder.alloc (horder : isolate.InOrder) : isolate.alloc.InOrder := by
  refine ⟨⟨Nat.lt_succ_self _, horder.bounded⟩, ?_⟩
  have hrange := horder.inRange
  simp only [Isolate.alloc]
  split
  · simp only [List.length_append, List.length_singleton]
    omega
  · omega

theorem InOrder.transition (horder : isolate.InOrder) (hnext : Transition isolate action next) :
    next.InOrder := by
  have hrange := horder.inRange
  cases hnext with
  | openScope escapable => exact ⟨⟨le_refl _, horder.bounded⟩, hrange⟩
  | alloc => exact horder.alloc
  | store index below value hframes =>
      have hbounded := horder.bounded
      rw [hframes] at hbounded
      exact ⟨hbounded.below, by simpa [Isolate.store] using hrange⟩
  | escape address handle handleScope parent value =>
      exact ⟨bounded_setScopeValue.mpr horder.bounded, hrange⟩
  | enterLoop handleScope below hframes hphase hlt =>
      have hbounded := horder.bounded
      rw [hframes] at hbounded
      exact ⟨⟨⟨Nat.le_of_lt hlt, le_refl _, le_refl _⟩, hbounded.2⟩, hrange⟩
  | skipLoop handleScope below hframes =>
      have hbounded := horder.bounded
      rw [hframes] at hbounded
      exact ⟨⟨hbounded.1.prevPos_le, hbounded.2⟩, hrange⟩
  | releaseSlot handleScope index stop below hframes hphase hle =>
      have hbounded := horder.bounded
      rw [hframes] at hbounded
      have hscope := hbounded.1
      simp only [HandleScope.Bounded, hphase] at hscope
      exact ⟨⟨⟨hle, by omega, hscope.2.2⟩, hbounded.2⟩, hrange⟩
  | finishExit handleScope i stop below hframes =>
      have hbounded := horder.bounded
      rw [hframes] at hbounded
      exact ⟨⟨le_refl _, hbounded.2⟩, hbounded.1.prevPos_le.trans hrange⟩
  | closeScope handleScope below hframes =>
      have hbounded := horder.bounded
      rw [hframes] at hbounded
      exact ⟨hbounded.below, hrange⟩
  | engine op rt others => exact ⟨horder.bounded, hrange⟩

theorem owned_alloc : isolate.alloc.owned = isolate.owned := by
  simp only [owned, Isolate.alloc, parkedRefs, liveRefs, span_self, zero_add]
  split
  · rw [liveRefs_append_blank]
  · rfl

/-- Storing a result fills the slot reserved for it. -/
theorem owned_store {index : Nat} {below : List Frame} (value : JSValue)
    (horder : isolate.InOrder) (hframes : isolate.frames = .slot index :: below) :
    (isolate.store index below value).owned = isolate.owned + value.refs := by
  have hbounded := horder.bounded
  have hrange := horder.inRange
  rw [hframes] at hbounded
  have hindex : index < isolate.valueAllocPos := hbounded.1
  have hsplit : slotRefs (isolate.values.set index value) index isolate.valueAllocPos = _ :=
    span_split (le_refl index) hindex
  have hslot : (isolate.values.set index value).getD index .undefined = value :=
    getD_set_self (by omega)
  rw [slotRefs, span_self, zero_add, hslot,
    span_set_of_outside (Or.inl (Nat.lt_succ_self index))] at hsplit
  simp only [owned, Isolate.store, hframes, liveRefs, parkedRefs]
  rw [liveRefs_add_slotRefs hbounded.2 (Nat.le_of_lt hindex),
    liveRefs_set value hbounded.2 (le_refl index)]
  simp only [slotRefs, hsplit]
  abel

/-- The references of the other owners are counted apart. -/
theorem EngineTransition.held_eq {op : EngineOp} {rt : Runtime} {others : Ptr → Int}
    (hengine : EngineTransition isolate op rt others) :
    ({ isolate with runtime := rt, others := others } : Isolate).held = isolate.held := by
  cases hengine with
  | produce value => exact held_of_others (Runtime.produce_refCount value) rfl
  | free kind ptr =>
      have hcount : (isolate.runtime.freeValueRT (.ref kind ptr)).refCount =
          isolate.runtime.refCount + -(JSValue.ref kind ptr).refs := by
        rw [Runtime.freeValueRT_refCount, sub_eq_add_neg]
      exact held_of_others hcount (sub_eq_add_neg _ _)
  | idle value => rfl
  | condemn ptr => simp only [held, Runtime.condemnGarbage, Runtime.condemn_refCount]
  | collect ptr => simp only [held, Runtime.freeObject_refCount]
  | endFree => rfl

/-- The equation every step satisfies. -/
theorem held_add_owned (horder : isolate.InOrder) (hnext : Transition isolate action next) :
    next.held + isolate.owned = isolate.held + next.owned + isolate.lost action := by
  have hbounded := horder.bounded
  cases hnext with
  | openScope escapable =>
      simp [held, owned, lost, Isolate.openScope, liveRefs, parkedRefs, HandleScope.slotRefs,
        HandleScope.parkedRefs]
  | alloc =>
      rw [owned_alloc, show isolate.lost (.handle .alloc) = 0 from rfl, add_zero]
      rfl
  | store index below value hframes =>
      rw [owned_store value horder hframes, held_store,
        show isolate.lost (.handle (.store value)) = 0 from rfl]
      abel
  | escape address handle handleScope parent value hscope hparent hderef =>
      have hlost : isolate.lost (.handle (.escape address handle)) =
          displacedRefs parent value isolate.frames := by
        simp [lost, hscope, hparent, hderef]
      have hparked := parkedRefs_setScopeValue parent value isolate.frames
      rw [hlost, held_escapeValue]
      simp only [owned, escapeValue, liveRefs_setScopeValue]
      calc isolate.held + value.refs +
            (liveRefs isolate.values isolate.frames isolate.valueAllocPos +
              parkedRefs isolate.frames)
          = isolate.held + liveRefs isolate.values isolate.frames isolate.valueAllocPos +
              (parkedRefs isolate.frames + value.refs) := by abel
        _ = _ := by rw [← hparked]; abel
  | enterLoop handleScope below hframes hphase hlt =>
      simp [held, owned, lost, hframes, liveRefs, parkedRefs, HandleScope.slotRefs,
        HandleScope.parkedRefs, hphase]
  | skipLoop handleScope below hframes hphase =>
      rw [held_releaseScopeValue]
      simp only [owned, lost, hframes, liveRefs, parkedRefs, HandleScope.slotRefs,
        HandleScope.parkedRefs, hphase, releaseScopeValue]
      abel
  | releaseSlot handleScope index stop below hframes hphase hle =>
      rw [held_releaseSlot]
      simp only [owned, lost, hframes, liveRefs, parkedRefs, HandleScope.slotRefs,
        HandleScope.parkedRefs, hphase, Isolate.releaseSlot, span_succ hle]
      abel
  | finishExit handleScope i stop below hframes hphase hle =>
      rw [hframes] at hbounded
      have hscope := hbounded.1
      simp only [HandleScope.Bounded, hphase] at hscope
      have hi : i = handleScope.prevPos := by omega
      rw [held_finishExit]
      simp only [owned, lost, hframes, liveRefs, parkedRefs, HandleScope.slotRefs,
        HandleScope.parkedRefs, hphase, Isolate.finishExit, releaseScopeValue, hi, span_self]
      abel
  | closeScope handleScope below hframes hphase =>
      rw [hframes] at hbounded
      simp only [held, owned, lost, hframes, liveRefs, parkedRefs, HandleScope.slotRefs,
        HandleScope.parkedRefs, hphase, Isolate.closeScope]
      rw [liveRefs_add_slotRefs hbounded.2 hbounded.1.prevPos_le]
      abel
  | engine op rt others hengine =>
      rw [hengine.held_eq]
      exact (add_zero _).symm

theorem displacedRefs_nonneg (target : Nat) (value : JSValue) (frames : List Frame) :
    0 ≤ displacedRefs target value frames := by
  unfold displacedRefs
  split
  · split <;> exact JSValue.refs_nonneg _
  · exact value.refs_nonneg

theorem lost_nonneg (action : Action) : 0 ≤ isolate.lost action := by
  unfold lost
  split
  · split
    · exact displacedRefs_nonneg _ _ _
    · exact le_refl _
  · split
    · split
      · exact span_nonneg JSValue.refs_nonneg
      · exact le_refl _
    · exact le_refl _
  · exact le_refl _

/-- References outside the account never come back into it. -/
theorem InOrder.slack_le (horder : isolate.InOrder) (hnext : Transition isolate action next) :
    isolate.held - isolate.owned ≤ next.held - next.owned := by
  intro ptr
  have hbalance := congrFun (held_add_owned horder hnext) ptr
  have hlost : 0 ≤ isolate.lost action ptr := lost_nonneg action ptr
  simp only [Pi.add_apply] at hbalance
  simp only [Pi.sub_apply]
  omega

/-- References that this layer holds besides those of its handles stay held. -/
theorem InOrder.owned_add_le (horder : isolate.InOrder) (hnext : Transition isolate action next)
    {kept : Ptr → Int} (howned : isolate.owned + kept ≤ isolate.held) :
    next.owned + kept ≤ next.held := by
  have hslack := horder.slack_le hnext
  rw [← le_sub_iff_add_le'] at howned ⊢
  exact howned.trans hslack

variable (isolate) in
theorem owned_nonneg : 0 ≤ isolate.owned :=
  add_nonneg (liveRefs_nonneg _) (parkedRefs_nonneg _)

variable (isolate) in
/-- The other owners have counted references only, and what the layer holds is live. -/
structure Counted : Prop where
  others_nonneg : 0 ≤ isolate.others
  live : ∀ ptr, 0 < isolate.held ptr → isolate.runtime.cell ptr = .live

theorem held_new : Isolate.new.held = 0 := sub_zero 0

theorem counted_new : Isolate.new.Counted := by
  refine ⟨le_refl _, fun ptr hpos => ?_⟩
  rw [held_new] at hpos
  exact absurd hpos (lt_irrefl 0)

theorem Counted.held_le (hcounted : isolate.Counted) :
    isolate.held ≤ isolate.runtime.refCount :=
  sub_le_self _ hcounted.others_nonneg

/-- Taking references to live values and holding them. -/
theorem Counted.take (hcounted : isolate.Counted) {refs : Ptr → Int}
    (hkept : ∀ ptr, isolate.runtime.cell ptr = .live → next.runtime.cell ptr = .live)
    (hlive : ∀ ptr, 0 < refs ptr → next.runtime.cell ptr = .live)
    (hothers : next.others = isolate.others) (hheld : next.held = isolate.held + refs) :
    next.Counted := by
  refine ⟨hothers ▸ hcounted.others_nonneg, fun ptr hpos => ?_⟩
  rw [hheld, Pi.add_apply] at hpos
  by_cases hbefore : 0 < isolate.held ptr
  · exact hkept ptr (hcounted.live ptr hbefore)
  · exact hlive ptr (by omega)

/-- Releasing a reference, the layer's own or another owner's. A cell that loses its
last one is a cell the layer holds no more. -/
theorem Counted.release (hcounted : isolate.Counted) (value : JSValue)
    (hrt : next.runtime = isolate.runtime.freeValueRT value) (hothers : 0 ≤ next.others)
    (hle : next.held ≤ isolate.held) : next.Counted := by
  refine ⟨hothers, fun ptr hpos => ?_⟩
  rw [hrt]
  rcases isolate.runtime.freeValueRT_cell value ptr with hsame | ⟨⟨kind, rfl⟩, hzero⟩
  · rw [hsame]
    exact hcounted.live ptr (lt_of_lt_of_le hpos (hle ptr))
  · have hnonneg : 0 ≤ next.others ptr := hothers ptr
    simp only [held, hrt, Runtime.freeValueRT_refCount, Pi.sub_apply,
      JSValue.refs_ref_self] at hpos
    omega

theorem Counted.releaseHeld (hcounted : isolate.Counted) (value : JSValue)
    (hrt : next.runtime = isolate.runtime.freeValueRT value)
    (hothers : next.others = isolate.others) : next.Counted := by
  refine hcounted.release value hrt (hothers ▸ hcounted.others_nonneg) ?_
  rw [held_give (by rw [hrt, Runtime.freeValueRT_refCount]) hothers]
  exact sub_le_self _ value.refs_nonneg

theorem Counted.engine (hcounted : isolate.Counted) {op : EngineOp} {rt : Runtime}
    {others : Ptr → Int} (hengine : EngineTransition isolate op rt others) :
    ({ isolate with runtime := rt, others := others } : Isolate).Counted := by
  have hsame := hengine.held_eq
  have hothers : ∀ ptr, 0 ≤ isolate.others ptr := hcounted.others_nonneg
  cases hengine with
  | produce value =>
      refine ⟨add_nonneg hcounted.others_nonneg value.refs_nonneg, fun ptr hpos => ?_⟩
      rw [hsame] at hpos
      exact Runtime.produce_cell_of_live value (hcounted.live ptr hpos)
  | free kind ptr hpos =>
      refine hcounted.release (.ref kind ptr) rfl (fun other => ?_) (le_of_eq hsame)
      have hother := hothers other
      simp only [Pi.zero_apply, Pi.sub_apply, JSValue.refs]
      split
      next heq =>
        subst other
        omega
      next => omega
  | idle value => exact hcounted
  | condemn ptr hheld =>
      refine ⟨hcounted.others_nonneg, fun other hpos => ?_⟩
      rw [hsame] at hpos
      have hne : other ≠ ptr := by
        rintro rfl
        exact absurd hheld (ne_of_gt hpos)
      exact (Runtime.condemn_cell_of_ne hne).trans (hcounted.live other hpos)
  | collect ptr hcell =>
      refine ⟨hcounted.others_nonneg, fun other hpos => ?_⟩
      rw [hsame] at hpos
      have hlive := hcounted.live other hpos
      have hne : other ≠ ptr := by
        rintro rfl
        rw [hcell] at hlive
        cases hlive
      exact (Function.update_of_ne hne ..).trans hlive
  | endFree => exact ⟨hcounted.others_nonneg, hcounted.live⟩

theorem Counted.transition (hcounted : isolate.Counted)
    (hnext : Transition isolate action next) : next.Counted := by
  cases hnext with
  | openScope escapable => exact ⟨hcounted.others_nonneg, hcounted.live⟩
  | alloc => exact ⟨hcounted.others_nonneg, hcounted.live⟩
  | store index below value =>
      exact hcounted.take (fun _ => Runtime.produce_cell_of_live value)
        (fun _ => (Runtime.produce_live value).of_refs_pos) rfl (held_store index below value)
  | escape address handle handleScope parent value hscope hparent hderef hlive =>
      exact hcounted.take (fun _ h => h) (fun _ => hlive.of_refs_pos) rfl
        (held_escapeValue parent value)
  | enterLoop handleScope below => exact ⟨hcounted.others_nonneg, hcounted.live⟩
  | skipLoop handleScope below => exact hcounted.releaseHeld handleScope.scopeValue rfl rfl
  | releaseSlot handleScope index stop below => exact hcounted.releaseHeld _ rfl rfl
  | finishExit handleScope i stop below => exact hcounted.releaseHeld handleScope.scopeValue rfl rfl
  | closeScope handleScope below => exact ⟨hcounted.others_nonneg, hcounted.live⟩
  | engine op rt others hengine => exact hcounted.engine hengine

theorem InOrder.copyToSlot (horder : isolate.InOrder) (value : JSValue) :
    (isolate.copyToSlot value).InOrder := by
  refine ⟨horder.bounded.mono (Nat.le_succ _), ?_⟩
  have hrange := horder.alloc.inRange
  simpa only [Isolate.copyToSlot, List.length_set] using hrange

/-- A copy is a handle like any other. -/
theorem owned_copyToSlot (horder : isolate.InOrder) (value : JSValue) :
    (isolate.copyToSlot value).owned = isolate.owned + value.refs := by
  have hstore := owned_store value horder.alloc
    (show isolate.alloc.frames = .slot isolate.valueAllocPos :: isolate.frames from rfl)
  rw [owned_alloc] at hstore
  exact hstore

/-- The copy is found in the slot that was allocated for it. -/
theorem InOrder.deref_copyToSlot (horder : isolate.InOrder) (value : JSValue) :
    (isolate.copyToSlot value).deref (.slot isolate.valueAllocPos) = some value := by
  have hlt : isolate.valueAllocPos < isolate.alloc.values.length := horder.alloc.inRange
  simp only [Isolate.copyToSlot, deref, Isolate.alloc, Nat.lt_succ_self, if_true]
  exact List.getElem?_set_self hlt

theorem Counted.copyToSlot (hcounted : isolate.Counted) {value : JSValue}
    (hlive : isolate.runtime.Live value) : (isolate.copyToSlot value).Counted :=
  hcounted.take (fun _ h => h) (fun _ => hlive.of_refs_pos) rfl (held_copyToSlot value)

variable (isolate) in
structure WellFormed : Prop extends InOrder isolate, Counted isolate where
  owned_le : isolate.owned ≤ isolate.held

theorem wellFormed_new : Isolate.new.WellFormed where
  toInOrder := inOrder_new
  toCounted := counted_new
  owned_le := by
    rw [held_new]
    simp [owned, Isolate.new, liveRefs, parkedRefs]

/-- Step lemma of the handle layer. -/
theorem WellFormed.step (hwell : isolate.WellFormed) (hstep : isolate.step action = .ok next) :
    next.WellFormed := by
  have hnext := transition_of_step hstep
  refine { toInOrder := hwell.toInOrder.transition hnext
           toCounted := hwell.toCounted.transition hnext
           owned_le := ?_ }
  have howned := hwell.toInOrder.owned_add_le hnext (show isolate.owned + 0 ≤ _ by
    simpa using hwell.owned_le)
  simpa using howned

/-- A value the layer holds a reference to is live and counted. -/
theorem Counted.of_refs_le (hcounted : isolate.Counted) {value : JSValue}
    (hheld : value.refs ≤ isolate.held) :
    isolate.runtime.Live value ∧ value.refs ≤ isolate.runtime.refCount := by
  refine ⟨?_, hheld.trans hcounted.held_le⟩
  rintro kind ptr rfl
  apply hcounted.live ptr
  have hone : (JSValue.ref kind ptr).refs ptr ≤ isolate.held ptr := hheld ptr
  rw [JSValue.refs_ref_self] at hone
  omega

/-- Run lemma of the handle layer. -/
theorem wellFormed_of_run {actions : List Action}
    (hrun : Isolate.step.run Isolate.new actions = .ok isolate) : isolate.WellFormed :=
  Isolate.step.run_invariant_of_step WellFormed
    (fun _ _ _ hwell hstep => hwell.step hstep) wellFormed_new hrun

end Isolate

end QuickjsBackend
