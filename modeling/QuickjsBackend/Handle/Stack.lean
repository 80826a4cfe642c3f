import QuickjsBackend.Handle.Transition

/-! # The scopes on the stack

Addresses of scopes survive pushes, and a pop takes away the address on top
only. Every scope is linked to an enclosing one further down the stack.
-/

namespace QuickjsBackend

section Addresses

variable {address target : Nat} {frame : Frame} {frames below : List Frame}
variable {was now : HandleScope} {value : JSValue}

theorem lt_length_of_scopeAt {handleScope : HandleScope}
    (hscope : scopeAt address frames = some handleScope) : address < frames.length := by
  induction frames with
  | nil => simp [scopeAt] at hscope
  | cons frame below ih =>
      by_cases heq : below.length = address
      · simp [heq]
      · simp only [scopeAt, heq, if_false] at hscope
        have hlt := ih hscope
        simp only [List.length_cons]
        omega

@[simp] theorem setScopeValue_length :
    (setScopeValue target value frames).length = frames.length := by
  induction frames with
  | nil => rfl
  | cons frame below ih =>
      simp only [setScopeValue]
      split
      · cases frame <;> rfl
      · simp [ih]

/-- Parking overwrites one `scope_value_` and nothing else of any scope. -/
theorem scopeAt_setScopeValue :
    scopeAt address (setScopeValue target value frames) =
      (scopeAt address frames).map fun handleScope =>
        if address = target then { handleScope with scopeValue := value } else handleScope := by
  induction frames with
  | nil => rfl
  | cons frame below ih =>
      by_cases htarget : below.length = target
      · simp only [setScopeValue, htarget, if_true]
        cases frame with
        | slot index =>
            by_cases haddress : target = address
            · simp [scopeAt, htarget, haddress]
            · have hne : address ≠ target := fun h => haddress h.symm
              simp [scopeAt, htarget, haddress, hne]
        | scope handleScope =>
            by_cases haddress : target = address
            · simp [scopeAt, htarget, haddress]
            · have hne : address ≠ target := fun h => haddress h.symm
              simp [scopeAt, htarget, haddress, hne]
      · simp only [setScopeValue, htarget, if_false, scopeAt, setScopeValue_length]
        by_cases haddress : below.length = address
        · have hne : address ≠ target := fun h => htarget (haddress.trans h)
          cases frame <;> simp [haddress, hne]
        · simp only [haddress, if_false, ih]

/-- A push leaves the scopes below it where they were. -/
theorem scopeAt_cons (hscope : scopeAt address below = some was) :
    scopeAt address (frame :: below) = some was := by
  have hlt := lt_length_of_scopeAt hscope
  have hne : below.length ≠ address := by omega
  simp only [scopeAt, hne, if_false, hscope]

/-- The entry on top is at the address of the entries below it, the others where
they were without it. -/
theorem scopeAt_cons_cases (hscope : scopeAt address (frame :: below) = some now) :
    (address = below.length ∧ frame = .scope now) ∨ scopeAt address below = some now := by
  by_cases heq : below.length = address
  · left
    cases frame with
    | slot index => simp [scopeAt, heq] at hscope
    | scope top =>
        simp only [scopeAt, heq, if_true, Option.some.injEq] at hscope
        exact ⟨heq.symm, by rw [hscope]⟩
  · right
    simpa only [scopeAt, heq, if_false] using hscope

theorem scopeAt_top (handleScope : HandleScope) :
    scopeAt below.length (.scope handleScope :: below) = some handleScope := by
  simp [scopeAt]

/-- Replacing the entry on top by one with the same parked value. -/
theorem scopeValue_of_replace {top replaced : HandleScope}
    (hwas : scopeAt address (.scope top :: below) = some was)
    (hnow : scopeAt address (.scope replaced :: below) = some now)
    (hkept : replaced.scopeValue = top.scopeValue) : now.scopeValue = was.scopeValue := by
  by_cases heq : below.length = address
  · simp only [scopeAt, heq, if_true, Option.some.injEq] at hwas hnow
    rw [← hwas, ← hnow, hkept]
  · simp only [scopeAt, heq, if_false] at hwas hnow
    rw [hwas] at hnow
    rw [Option.some.inj hnow]

end Addresses

namespace Isolate

variable {isolate next : Isolate} {action : Action}

variable (isolate) in
/-- Scopes are linked through the stack: each enclosing scope is below. -/
structure Linked : Prop where
  current : ∀ address, isolate.currentHandleScope = some address →
    ∃ handleScope, scopeAt address isolate.frames = some handleScope
  enclosing : ∀ address handleScope parent, scopeAt address isolate.frames = some handleScope →
    handleScope.prevScope = some parent →
    parent < address ∧ ∃ outer, scopeAt parent isolate.frames = some outer

theorem linked_new : Isolate.new.Linked where
  current := by simp [Isolate.new]
  enclosing := by simp [Isolate.new, scopeAt]

theorem Linked.push (hlinked : isolate.Linked) (frame : Frame) (address : Nat)
    (handleScope : HandleScope) (parent : Nat)
    (hframe : frame = .scope handleScope → handleScope.prevScope = isolate.currentHandleScope)
    (hscope : scopeAt address (frame :: isolate.frames) = some handleScope)
    (hparent : handleScope.prevScope = some parent) :
    parent < address ∧ ∃ outer, scopeAt parent (frame :: isolate.frames) = some outer := by
  rcases scopeAt_cons_cases hscope with ⟨rfl, htop⟩ | hbelow
  · rw [hframe htop] at hparent
    obtain ⟨outer, houter⟩ := hlinked.current parent hparent
    exact ⟨lt_length_of_scopeAt houter, outer, scopeAt_cons houter⟩
  · obtain ⟨hlt, outer, houter⟩ := hlinked.enclosing address handleScope parent hbelow hparent
    exact ⟨hlt, outer, scopeAt_cons houter⟩

/-- The links among the entries under the top do not leave them. -/
theorem Linked.below (hlinked : isolate.Linked) {frame : Frame} {below : List Frame}
    (hframes : isolate.frames = frame :: below) (address : Nat) (handleScope : HandleScope)
    (parent : Nat) (hscope : scopeAt address below = some handleScope)
    (hparent : handleScope.prevScope = some parent) :
    parent < address ∧ ∃ outer, scopeAt parent below = some outer := by
  obtain ⟨hlt, outer, houter⟩ := hlinked.enclosing address handleScope parent
    (by rw [hframes]; exact scopeAt_cons hscope) hparent
  have hinside := lt_length_of_scopeAt hscope
  rw [hframes] at houter
  rcases scopeAt_cons_cases houter with ⟨heq, _⟩ | hbelow
  · omega
  · exact ⟨hlt, outer, hbelow⟩

/-- Changes to the fields of scopes other than the link keep the links. -/
theorem Linked.congr (hlinked : isolate.Linked)
    (hcurrent : next.currentHandleScope = isolate.currentHandleScope)
    (hframes : ∀ address, (scopeAt address next.frames).map HandleScope.prevScope =
      (scopeAt address isolate.frames).map HandleScope.prevScope) : next.Linked := by
  have hexists : ∀ address, (∃ handleScope, scopeAt address isolate.frames = some handleScope) →
      ∃ handleScope, scopeAt address next.frames = some handleScope := by
    rintro address ⟨handleScope, hscope⟩
    have hmap := hframes address
    rw [hscope] at hmap
    cases hnow : scopeAt address next.frames with
    | none => simp [hnow] at hmap
    | some now => exact ⟨now, rfl⟩
  refine ⟨fun address haddress => hexists address (hlinked.current address (hcurrent ▸ haddress)),
    fun address handleScope parent hscope hparent => ?_⟩
  have hmap := hframes address
  rw [hscope, Option.map_some, hparent] at hmap
  cases hwas : scopeAt address isolate.frames with
  | none => simp [hwas] at hmap
  | some was =>
      rw [hwas, Option.map_some, Option.some.injEq] at hmap
      obtain ⟨hlt, houter⟩ := hlinked.enclosing address was parent hwas hmap.symm
      exact ⟨hlt, hexists parent houter⟩

theorem map_prevScope_of_replace (address : Nat) {top replaced : HandleScope} {below : List Frame}
    (hkept : replaced.prevScope = top.prevScope) :
    (scopeAt address (.scope replaced :: below)).map HandleScope.prevScope =
      (scopeAt address (.scope top :: below)).map HandleScope.prevScope := by
  simp only [scopeAt]
  split <;> simp [hkept]

theorem Linked.transition (hlinked : isolate.Linked) (hnext : Transition isolate action next) :
    next.Linked := by
  cases hnext with
  | openScope escapable =>
      refine ⟨fun address haddress => ?_, fun address handleScope parent hscope hparent => ?_⟩
      · cases haddress
        exact ⟨_, scopeAt_top _⟩
      · exact hlinked.push _ address handleScope parent
          (fun htop => by rw [← Frame.scope.inj htop]) hscope hparent
  | alloc =>
      refine ⟨fun address haddress => ?_, fun address handleScope parent hscope hparent => ?_⟩
      · obtain ⟨outer, houter⟩ := hlinked.current address haddress
        exact ⟨outer, scopeAt_cons houter⟩
      · exact hlinked.push _ address handleScope parent (by simp) hscope hparent
  | store index below value hframes =>
      refine ⟨fun address haddress => ?_, hlinked.below hframes⟩
      obtain ⟨outer, houter⟩ := hlinked.current address haddress
      rw [hframes] at houter
      rcases scopeAt_cons_cases houter with ⟨_, htop⟩ | hbelow
      · cases htop
      · exact ⟨outer, hbelow⟩
  | escape address handle handleScope target value =>
      refine hlinked.congr rfl fun address => ?_
      simp only [escapeValue, scopeAt_setScopeValue, Option.map_map]
      congr 1
      funext scope
      simp only [Function.comp_apply]
      split <;> rfl
  | enterLoop handleScope below hframes =>
      refine hlinked.congr rfl fun address => ?_
      rw [hframes]
      exact map_prevScope_of_replace address rfl
  | skipLoop handleScope below hframes =>
      refine hlinked.congr rfl fun address => ?_
      rw [hframes]
      exact map_prevScope_of_replace address rfl
  | releaseSlot handleScope index stop below hframes =>
      refine hlinked.congr rfl fun address => ?_
      rw [hframes]
      exact map_prevScope_of_replace address rfl
  | finishExit handleScope i stop below hframes =>
      refine hlinked.congr rfl fun address => ?_
      rw [hframes]
      exact map_prevScope_of_replace address rfl
  | closeScope handleScope below hframes =>
      refine ⟨fun address haddress => ?_, hlinked.below hframes⟩
      have htop : scopeAt below.length isolate.frames = some handleScope := by
        rw [hframes]
        exact scopeAt_top handleScope
      obtain ⟨hlt, outer, houter⟩ :=
        hlinked.enclosing below.length handleScope address htop haddress
      rw [hframes] at houter
      rcases scopeAt_cons_cases houter with ⟨heq, _⟩ | hbelow
      · omega
      · exact ⟨outer, hbelow⟩
  | engine op rt others => exact ⟨hlinked.current, hlinked.enclosing⟩

theorem linked_of_run {actions : List Action}
    (hrun : Isolate.step.run Isolate.new actions = .ok isolate) : isolate.Linked :=
  Isolate.step.run_invariant_of_step Linked
    (fun _ _ _ hlinked hstep => hlinked.transition (transition_of_step hstep)) linked_new hrun

end Isolate

end QuickjsBackend
