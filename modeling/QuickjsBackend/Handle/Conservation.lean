import QuickjsBackend.Handle.Invariant

/-! # Conservation of references across handle scopes

The handle layer conserves references while the engine counts, besides those of
other owners, exactly the ones that scope destructors will still release, and
none once no scope is open. A run conserves them exactly when none of its steps
takes a reference out of that account, or brings one in that was never counted:
an escape that overwrites a parked reference, a weak callback that leaves a
handle behind in a scope under destruction, a handle created outside every
scope, a construct call that returns its `this_`.
-/

namespace QuickjsBackend

open Foundation

def hasScope : List Frame → Bool
  | [] => false
  | .scope _ :: _ => true
  | .slot _ :: below => hasScope below

/-- The part of the stack below every scope, with the position it ends at. -/
def base : List Frame → Nat → List Frame × Nat
  | [], hi => ([], hi)
  | .slot index :: below, hi =>
      if hasScope below then base below index else (.slot index :: below, hi)
  | .scope handleScope :: below, _ => base below handleScope.prevPos

/-- References in the slots outside every scope. -/
def baseRefs (values : List JSValue) (frames : List Frame) (hi : Nat) : Ptr → Int :=
  liveRefs values (base frames hi).1 (base frames hi).2

/-- No slot with index in `[lo, hi)` carries a reference count. -/
def NoRefs (values : List JSValue) (lo hi : Nat) : Prop :=
  ∀ i, lo ≤ i → i < hi → (values.getD i .undefined).hasRefCount = false

section Base

variable {values : List JSValue} {frames : List Frame} {lo hi : Nat}

theorem slotRefs_eq_zero_iff : slotRefs values lo hi = 0 ↔ NoRefs values lo hi := by
  unfold slotRefs NoRefs
  rw [span_eq_zero_iff JSValue.refs_nonneg]
  simp only [JSValue.refs_eq_zero_iff]

theorem base_of_not_hasScope (hscope : hasScope frames = false) :
    base frames hi = (frames, hi) := by
  cases frames with
  | nil => rfl
  | cons frame below =>
      cases frame with
      | slot index =>
          have hbelow : hasScope below = false := hscope
          simp only [base, hbelow, Bool.false_eq_true, if_false]
      | scope handleScope => cases hscope

/-- Above a scope the base does not move. -/
theorem base_of_hasScope (lo hi : Nat) (hscope : hasScope frames = true) :
    base frames lo = base frames hi := by
  cases frames with
  | nil => cases hscope
  | cons frame below =>
      cases frame with
      | slot index =>
          have hbelow : hasScope below = true := hscope
          simp only [base, hbelow, if_true]
      | scope handleScope => rfl

theorem base_bounded (hbounded : Bounded frames hi) :
    Bounded (base frames hi).1 (base frames hi).2 ∧ (base frames hi).2 ≤ hi := by
  induction frames generalizing hi with
  | nil => exact ⟨trivial, le_refl hi⟩
  | cons frame below ih =>
      cases frame with
      | slot index =>
          have hindex : index < hi := hbounded.1
          simp only [base]
          split
          · have hbelow := ih hbounded.2
            exact ⟨hbelow.1, by omega⟩
          · exact ⟨hbounded, le_refl hi⟩
      | scope handleScope =>
          have hbelow := ih hbounded.2
          have hprev := hbounded.1.prevPos_le
          exact ⟨hbelow.1, hbelow.2.trans hprev⟩

theorem hasScope_setScopeValue (target : Nat) (value : JSValue) :
    hasScope (setScopeValue target value frames) = hasScope frames := by
  induction frames with
  | nil => rfl
  | cons frame below ih =>
      simp only [setScopeValue]
      split
      · cases frame <;> rfl
      · cases frame with
        | slot index => exact ih
        | scope handleScope => rfl

theorem setScopeValue_of_not_hasScope (target : Nat) (value : JSValue)
    (hscope : hasScope frames = false) : setScopeValue target value frames = frames := by
  induction frames with
  | nil => rfl
  | cons frame below ih =>
      cases frame with
      | slot index =>
          simp only [setScopeValue, ih hscope]
          split <;> rfl
      | scope handleScope => cases hscope

theorem base_setScopeValue (target : Nat) (value : JSValue) :
    base (setScopeValue target value frames) hi = base frames hi := by
  induction frames generalizing hi with
  | nil => rfl
  | cons frame below ih =>
      cases frame with
      | slot index =>
          simp only [setScopeValue]
          split
          · rfl
          · simp only [base, hasScope_setScopeValue, ih]
            split
            · rfl
            next hscope =>
              rw [setScopeValue_of_not_hasScope target value (by simpa using hscope)]
      | scope handleScope =>
          simp only [setScopeValue]
          split
          · rfl
          · simp only [base, ih]

theorem baseRefs_of_not_hasScope (hscope : hasScope frames = false) :
    baseRefs values frames hi = liveRefs values frames hi := by
  rw [baseRefs, base_of_not_hasScope hscope]

theorem parkedRefs_of_not_hasScope (hscope : hasScope frames = false) : parkedRefs frames = 0 := by
  induction frames with
  | nil => rfl
  | cons frame below ih =>
      cases frame with
      | slot index => exact ih hscope
      | scope handleScope => cases hscope

end Base

namespace Isolate

variable (isolate : Isolate)

/-- No reference drops out of account: an escape displaces none, and weak
callbacks have left none above the slots that the destructor released. -/
def KeepsAccount : Action → Prop
  | .handle (.escape address handle) =>
      ∀ handleScope parent value outer, scopeAt address isolate.frames = some handleScope →
        handleScope.prevScope = some parent → isolate.deref handle = some value →
        scopeAt parent isolate.frames = some outer →
        if outer.phase = .closing then value.hasRefCount = false
        else outer.scopeValue.hasRefCount = false
  | .handle .finishExit =>
      ∀ handleScope below i stop, isolate.frames = .scope handleScope :: below →
        handleScope.phase = .exiting i stop →
        NoRefs isolate.values stop isolate.valueAllocPos
  | _ => True

/-- No reference is left outside the scope that would release it. -/
def StaysInside : Action → Prop
  | .handle (.store value) => hasScope isolate.frames = false → value.hasRefCount = false
  | .handle .closeScope =>
      ∀ handleScope below, isolate.frames = .scope handleScope :: below →
        NoRefs isolate.values handleScope.prevPos isolate.valueAllocPos
  | _ => True

/-- The handle layer, and construct calls that return `this_`. -/
def scopeStep : StepFn Isolate (Action ⊕ JSValue) Fault := Isolate.step.sum returnStep

def Balanced : Action ⊕ JSValue → Prop
  | .inl action => isolate.KeepsAccount action ∧ isolate.StaysInside action
  | .inr value => value.hasRefCount = false

/-- After the step the engine counts the references of the other owners and exactly
those that the scope destructors will release; only the former once no scope is
open; and none in a slot allocated since the opening of a scope that has closed. -/
def Conserves (action : Action ⊕ JSValue) (outcome : Except Fault Isolate) : Prop :=
  ∀ next, outcome = .ok next →
    next.runtime.refCount = next.others + next.owned ∧
      (hasScope next.frames = false → next.runtime.refCount = next.others) ∧
      ∀ handleScope below, action = .inl (.handle .closeScope) →
        isolate.frames = .scope handleScope :: below →
        slotRefs next.values handleScope.prevPos next.valueAllocPos = 0

structure Accounted : Prop where
  inOrder : isolate.InOrder
  linked : isolate.Linked
  refCount_eq : isolate.runtime.refCount = isolate.others + isolate.owned
  base_empty : baseRefs isolate.values isolate.frames isolate.valueAllocPos = 0

theorem accounted_new : Isolate.new.Accounted where
  inOrder := inOrder_new
  linked := linked_new
  refCount_eq := by simp [owned, Isolate.new, Runtime.new, liveRefs, parkedRefs]
  base_empty := by simp [baseRefs, base, Isolate.new, liveRefs]

variable {isolate} {next : Isolate} {action : Action}

theorem lost_eq_zero_iff (hlinked : isolate.Linked) (hnext : Transition isolate action next) :
    isolate.lost action = 0 ↔ isolate.KeepsAccount action := by
  cases hnext with
  | escape address handle handleScope parent value hscope hparent hderef =>
      obtain ⟨_, outer, houter⟩ := hlinked.enclosing address handleScope parent hscope hparent
      have hzero : isolate.lost (.handle (.escape address handle)) = 0 ↔
          if outer.phase = .closing then value.hasRefCount = false
          else outer.scopeValue.hasRefCount = false := by
        simp only [lost, hscope, Option.bind_some, hparent, hderef, displacedRefs, houter]
        split <;> exact JSValue.refs_eq_zero_iff
      rw [hzero]
      constructor
      · intro hkeeps other target escaped enclosing hother htarget hescaped henclosing
        rw [hscope, Option.some.injEq] at hother
        subst other
        rw [hparent, Option.some.injEq] at htarget
        subst target
        rw [hderef, Option.some.injEq] at hescaped
        subst escaped
        rw [houter, Option.some.injEq] at henclosing
        subst enclosing
        exact hkeeps
      · intro hkeeps
        exact hkeeps handleScope parent value outer hscope hparent hderef houter
  | finishExit handleScope i stop below hframes hphase =>
      have hlost : isolate.lost (.handle .finishExit) =
          slotRefs isolate.values stop isolate.valueAllocPos := by
        simp only [lost, hframes, hphase]
      rw [hlost, slotRefs_eq_zero_iff]
      constructor
      · intro hnone other rest index top hother hindex
        rw [hframes, List.cons.injEq, Frame.scope.injEq] at hother
        obtain ⟨rfl, rfl⟩ := hother
        rw [hphase, ScopePhase.exiting.injEq] at hindex
        rw [← hindex.2]
        exact hnone
      · intro hkeeps
        exact hkeeps handleScope below i stop hframes hphase
  | _ => exact ⟨fun _ => trivial, fun _ => rfl⟩

/-- Where no scope is open everything the layer owns lies outside the scopes. -/
theorem owned_of_not_hasScope (hscope : hasScope isolate.frames = false) :
    isolate.owned = baseRefs isolate.values isolate.frames isolate.valueAllocPos := by
  rw [owned, parkedRefs_of_not_hasScope hscope, baseRefs_of_not_hasScope hscope, add_zero]

theorem baseRefs_alloc :
    baseRefs isolate.alloc.values isolate.alloc.frames isolate.alloc.valueAllocPos =
      baseRefs isolate.values isolate.frames isolate.valueAllocPos := by
  have hvalues : ∀ frames hi,
      liveRefs isolate.alloc.values frames hi = liveRefs isolate.values frames hi := by
    intro frames hi
    simp only [Isolate.alloc]
    split
    · exact liveRefs_append_blank hi
    · rfl
  simp only [baseRefs, hvalues]
  simp only [Isolate.alloc, base]
  cases hscope : hasScope isolate.frames with
  | true => rfl
  | false => simp [liveRefs, base_of_not_hasScope hscope]

/-- A result stored under a scope does not reach the slots outside. -/
theorem baseRefs_store {index : Nat} {below : List Frame} (value : JSValue)
    (horder : isolate.InOrder) (hframes : isolate.frames = .slot index :: below)
    (hscope : hasScope below = true) :
    baseRefs (isolate.store index below value).values below isolate.valueAllocPos =
      baseRefs isolate.values isolate.frames isolate.valueAllocPos := by
  have hbounded := horder.bounded
  rw [hframes] at hbounded
  have hbase := base_bounded hbounded.2
  simp only [baseRefs, hframes, base, hscope, if_true, Isolate.store]
  rw [base_of_hasScope isolate.valueAllocPos index hscope,
    liveRefs_set value hbase.1 hbase.2]

/-- A balanced step leaves nothing in the slots outside the scopes. -/
theorem Accounted.base_next (haccounted : isolate.Accounted)
    (hinside : isolate.StaysInside action) (hnext : Transition isolate action next) :
    baseRefs next.values next.frames next.valueAllocPos = 0 := by
  have hbase := haccounted.base_empty
  have horder := haccounted.inOrder
  cases hnext with
  | openScope escapable => exact hbase
  | alloc =>
      rw [baseRefs_alloc]
      exact hbase
  | store index below value hframes =>
      cases hscope : hasScope below with
      | true =>
          rw [← hbase, ← baseRefs_store value horder hframes hscope]
          rfl
      | false =>
          have htop : hasScope isolate.frames = false := by
            rw [hframes]
            exact hscope
          rw [← owned_of_not_hasScope hscope, owned_store value horder hframes,
            JSValue.refs_eq_zero_iff.mpr (hinside htop), add_zero, owned_of_not_hasScope htop]
          exact hbase
  | escape address handle handleScope parent value =>
      simp only [baseRefs, escapeValue, base_setScopeValue]
      exact hbase
  | enterLoop handleScope below hframes =>
      rw [hframes] at hbase
      exact hbase
  | skipLoop handleScope below hframes =>
      rw [hframes] at hbase
      exact hbase
  | releaseSlot handleScope index stop below hframes =>
      rw [hframes] at hbase
      exact hbase
  | finishExit handleScope i stop below hframes =>
      rw [hframes] at hbase
      exact hbase
  | closeScope handleScope below hframes =>
      have hbounded := horder.bounded
      rw [hframes] at hbase hbounded
      have hnone := slotRefs_eq_zero_iff.mpr (hinside handleScope below hframes)
      cases hscope : hasScope below with
      | true =>
          rw [← hbase]
          simp only [baseRefs, base, Isolate.closeScope]
          rw [base_of_hasScope isolate.valueAllocPos handleScope.prevPos hscope]
      | false =>
          have hbelow : liveRefs isolate.values below handleScope.prevPos = 0 := by
            rw [← baseRefs_of_not_hasScope hscope]
            exact hbase
          show baseRefs isolate.values below isolate.valueAllocPos = 0
          rw [baseRefs_of_not_hasScope hscope, liveRefs_add_slotRefs hbounded.2
            hbounded.1.prevPos_le, hbelow, hnone, add_zero]
  | engine op rt others => exact hbase

/-- The account is kept exactly by the steps that lose nothing. -/
theorem Accounted.refCount_next_iff (haccounted : isolate.Accounted)
    (hnext : Transition isolate action next) :
    next.runtime.refCount = next.others + next.owned ↔ isolate.KeepsAccount action := by
  rw [← lost_eq_zero_iff haccounted.linked hnext, ← sub_eq_iff_eq_add']
  have hbalance := held_add_owned haccounted.inOrder hnext
  have hheld : isolate.held = isolate.owned := sub_eq_iff_eq_add'.mpr haccounted.refCount_eq
  rw [hheld, add_assoc, add_comm isolate.owned, add_left_inj] at hbalance
  change next.held = next.owned ↔ _
  rw [hbalance, add_eq_left]

/-- Step lemma: a balanced step keeps the account. -/
theorem Accounted.step (haccounted : isolate.Accounted) {action : Action ⊕ JSValue}
    (hbalanced : isolate.Balanced action) (hstep : isolate.scopeStep action = .ok next) :
    next.Accounted := by
  cases action with
  | inl action =>
      have hnext := transition_of_step hstep
      exact { inOrder := haccounted.inOrder.transition hnext
              linked := haccounted.linked.transition hnext
              refCount_eq := (haccounted.refCount_next_iff hnext).mpr hbalanced.1
              base_empty := haccounted.base_next hbalanced.2 hnext }
  | inr value =>
      obtain ⟨_, rfl⟩ := eq_of_returnStep hstep
      have hzero := JSValue.refs_eq_zero_iff.mpr hbalanced
      have hothers : isolate.returnThis value = isolate := by
        rw [returnThis, hzero, add_zero]
      rw [hothers]
      exact haccounted

theorem Accounted.conserves (haccounted : isolate.Accounted) {action : Action ⊕ JSValue}
    (hbalanced : isolate.Balanced action) :
    isolate.Conserves action (isolate.scopeStep action) := by
  intro next hstep
  have hafter := haccounted.step hbalanced hstep
  refine ⟨hafter.refCount_eq, ?_, ?_⟩
  · intro hscope
    rw [hafter.refCount_eq, owned_of_not_hasScope hscope, hafter.base_empty, add_zero]
  · rintro handleScope below rfl hframes
    have hclose : isolate.step (.handle .closeScope) = .ok next := hstep
    have hvalues : next.values = isolate.values ∧ next.valueAllocPos = isolate.valueAllocPos := by
      cases transition_of_step hclose with
      | closeScope => exact ⟨rfl, rfl⟩
    rw [hvalues.1, hvalues.2]
    exact slotRefs_eq_zero_iff.mpr (hbalanced.2 handleScope below hframes)

/-- A step that conserves references was balanced. -/
theorem Accounted.balanced (haccounted : isolate.Accounted) {action : Action ⊕ JSValue}
    (hstep : isolate.scopeStep action = .ok next)
    (hconserves : isolate.Conserves action (.ok next)) : isolate.Balanced action := by
  obtain ⟨hcount, hoff, hclosed⟩ := hconserves next rfl
  cases action with
  | inr value =>
      obtain ⟨_, rfl⟩ := eq_of_returnStep hstep
      have hsame : isolate.others + isolate.owned = isolate.others + value.refs + isolate.owned :=
        haccounted.refCount_eq.symm.trans hcount
      rw [add_left_inj] at hsame
      exact JSValue.refs_eq_zero_iff.mp (left_eq_add.mp hsame)
  | inl action =>
      have hnext := transition_of_step hstep
      refine ⟨(haccounted.refCount_next_iff hnext).mp hcount, ?_⟩
      cases hnext with
      | store index below value hframes =>
          intro hscope
          have hbelow : hasScope below = false := by
            rw [hframes] at hscope
            exact hscope
          have hwas : isolate.runtime.refCount = isolate.others := by
            rw [haccounted.refCount_eq, owned_of_not_hasScope hscope, haccounted.base_empty,
              add_zero]
          have hnow : isolate.runtime.refCount + value.refs = isolate.others := by
            rw [← Runtime.produce_refCount]
            exact hoff hbelow
          rw [hwas] at hnow
          exact JSValue.refs_eq_zero_iff.mp (add_eq_left.mp hnow)
      | closeScope handleScope below hframes =>
          intro other rest hother
          exact slotRefs_eq_zero_iff.mp (hclosed other rest rfl hother)
      | _ => trivial

/-- A run conserves references at every step exactly when it is balanced. -/
theorem conserves_iff_balanced {actions : List (Action ⊕ JSValue)} {final : Isolate}
    (hrun : scopeStep.run Isolate.new actions = .ok final) :
    scopeStep.Always Conserves Isolate.new actions ↔
      scopeStep.Always (fun state action _ => state.Balanced action) Isolate.new actions := by
  apply scopeStep.always_iff_within Accounted _ _ accounted_new
    (scopeStep.always_ok_of_run hrun)
  · rintro state action hstate ⟨next, hnext⟩
    constructor
    · intro hlaw
      rw [hnext] at hlaw
      exact hstate.balanced hnext hlaw
    · exact hstate.conserves
  · intro state action next hstate hbalanced _ hnext
    exact hstate.step hbalanced hnext

/-- Both scopes of `nested` close. -/
def unnested : List Action :=
  [.handle .beginExit, .handle .releaseSlot, .handle .finishExit, .handle .closeScope,
    .handle .beginExit, .handle .closeScope]

/-- A value is escaped from the inner scope, and both scopes close. -/
def escaped : List (Action ⊕ JSValue) :=
  (nested ++ .handle (.escape 1 (.slot 0)) :: unnested).map .inl

theorem conserves_iff_balanced_nested :
    ∃ final, scopeStep.run Isolate.new escaped = .ok final ∧
      (scopeStep.Always Conserves Isolate.new escaped ↔
        scopeStep.Always (fun state action _ => state.Balanced action) Isolate.new escaped) :=
  ⟨_, rfl, conserves_iff_balanced rfl⟩

/-- Two siblings escape, and the reference of the first is never released. -/
theorem escape_sibling_leaks :
    ∃ final, scopeStep.run Isolate.new
        ((nested ++ .handle (.escape 1 (.slot 0)) :: sibling ++
          .handle (.escape 1 (.slot 0)) :: unnested).map .inl) = .ok final ∧
      final.frames = [] ∧ final.others 0 = 0 ∧ final.runtime.refCount 0 = 1 ∧
      final.runtime.cell 0 = .live :=
  ⟨_, rfl, rfl, rfl, rfl, rfl⟩

end Isolate

end QuickjsBackend
