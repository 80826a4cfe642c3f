import QuickjsBackend.Handle.Invariant

/-! # What an escaped handle denotes

`EscapableHandleScope::Escape` returns the address of the one `scope_value_` of
the parent scope. The handle therefore denotes whatever was parked there last:
the escaped value as long as no other value is escaped into the same parent.
-/

namespace QuickjsBackend

open Foundation

namespace Isolate

variable (isolate : Isolate)

/-- The value an action escapes into the scope at the address. -/
def escapesInto (parent : Nat) : Action → Option JSValue
  | .handle (.escape address handle) =>
      if (scopeAt address isolate.frames).bind HandleScope.prevScope = some parent
      then isolate.deref handle else none
  | _ => none

/-- The handle denotes the value, and the engine still counts a reference to it. -/
structure Denotes (handle : Local) (value : JSValue) : Prop where
  same : isolate.deref handle = some value
  live : isolate.runtime.Live value
  referenced : value.refs ≤ isolate.runtime.refCount

/-- The scope of `origin` at the address is on the stack, and its destructor has
not released `scope_value_` in between. -/
def StillOpen (origin : Isolate) (address : Nat) : Prop :=
  ∃ was now, scopeAt address origin.frames = some was ∧
    scopeAt address isolate.frames = some now ∧
      (now.phase = .closing → was.phase = .closing)

variable {isolate} {next : Isolate} {action : Action} {parent : Nat} {was now : HandleScope}

/-- Only an escape into a scope changes what is parked there. -/
theorem scopeValue_transition (hnext : Transition isolate action next)
    (hwas : scopeAt parent isolate.frames = some was)
    (hnow : scopeAt parent next.frames = some now) :
    now.scopeValue = (isolate.escapesInto parent action).getD was.scopeValue := by
  -- an entry pushed or popped has no scope of its own at the address
  have hpush : ∀ frame, scopeAt parent (frame :: isolate.frames) = some now →
      now.scopeValue = was.scopeValue := by
    intro frame hpushed
    rw [scopeAt_cons hwas] at hpushed
    rw [Option.some.inj hpushed]
  have hsame : scopeAt parent isolate.frames = some now → now.scopeValue = was.scopeValue := by
    intro hstill
    rw [hwas] at hstill
    rw [Option.some.inj hstill]
  have hpop : ∀ frame below, isolate.frames = frame :: below →
      scopeAt parent below = some now → now.scopeValue = was.scopeValue := by
    intro frame below hframes hbelow
    rw [hframes, scopeAt_cons hbelow] at hwas
    rw [Option.some.inj hwas]
  cases hnext with
  | openScope escapable => exact hpush _ hnow
  | alloc => exact hpush _ hnow
  | store index below value hframes => exact hpop _ below hframes hnow
  | escape address handle handleScope target value hscope hparent hderef hlive =>
      simp only [escapeValue, scopeAt_setScopeValue, hwas, Option.map_some,
        Option.some.injEq] at hnow
      simp only [escapesInto, hscope, Option.bind_some, hparent, Option.some.injEq, hderef]
      by_cases heq : parent = target
      · subst target
        simp only [if_true] at hnow ⊢
        rw [← hnow, Option.getD_some]
      · have hne : target ≠ parent := fun h => heq h.symm
        simp only [heq, hne, if_false] at hnow ⊢
        rw [← hnow, Option.getD_none]
  | enterLoop handleScope below hframes =>
      rw [hframes] at hwas
      exact scopeValue_of_replace hwas hnow rfl
  | skipLoop handleScope below hframes =>
      rw [hframes] at hwas
      exact scopeValue_of_replace hwas hnow rfl
  | releaseSlot handleScope index stop below hframes =>
      rw [hframes] at hwas
      exact scopeValue_of_replace hwas hnow rfl
  | finishExit handleScope i stop below hframes =>
      rw [hframes] at hwas
      exact scopeValue_of_replace hwas hnow rfl
  | closeScope handleScope below hframes => exact hpop _ below hframes hnow
  | engine op rt others => exact hsame hnow

/-- Whatever the action escapes into the scope at the address is the value. -/
def EscapesOnly (isolate : Isolate) (parent : Nat) (value : JSValue) (action : Action) : Prop :=
  ∀ other, isolate.escapesInto parent action = some other → other = value

/-- The invariant behind `Denotes`. A value escaped while the parent was past its
release is outside the account for good, others are owned by the parent. -/
structure Parked (origin : Isolate) (parent : Nat) (value : JSValue) (isolate : Isolate) :
    Prop where
  wellFormed : isolate.WellFormed
  stillOpen : isolate.StillOpen origin parent
  same : isolate.deref (.scopeValue parent) = some value
  settled : ∀ was, scopeAt parent origin.frames = some was → was.phase = .closing →
    value.refs ≤ isolate.held - isolate.owned

variable {origin : Isolate} {value : JSValue}

theorem Parked.denotes (hparked : Parked origin parent value isolate) :
    isolate.Denotes (.scopeValue parent) value := by
  obtain ⟨was, now, hwas, hnow, hphase⟩ := hparked.stillOpen
  have hsame := hparked.same
  simp only [deref, hnow, Option.map_some, Option.some.injEq] at hsame
  have hheld : value.refs ≤ isolate.held := by
    by_cases hclosing : now.phase = .closing
    · have hsettled := hparked.settled was hwas (hphase hclosing)
      exact hsettled.trans (sub_le_self _ isolate.owned_nonneg)
    · rw [← hsame]
      calc now.scopeValue.refs
          ≤ parkedRefs isolate.frames := refs_le_parkedRefs hnow hclosing
        _ ≤ isolate.owned := le_add_of_nonneg_left (liveRefs_nonneg _)
        _ ≤ isolate.held := hparked.wellFormed.owned_le
  have hcounted := hparked.wellFormed.toCounted.of_refs_le hheld
  exact ⟨hparked.same, hcounted.1, hcounted.2⟩

/-- A step that escapes nothing else into the parent keeps the value parked. -/
theorem Parked.deref_next (hparked : Parked origin parent value isolate)
    (hopen : next.StillOpen origin parent) (hstep : isolate.step action = .ok next) :
    next.deref (.scopeValue parent) =
      some ((isolate.escapesInto parent action).getD value) := by
  obtain ⟨_, now, _, hnow, _⟩ := hparked.stillOpen
  obtain ⟨_, later, _, hlater, _⟩ := hopen
  have hsame := hparked.same
  simp only [deref, hnow, Option.map_some, Option.some.injEq] at hsame
  simp only [deref, hlater, Option.map_some]
  rw [scopeValue_transition (transition_of_step hstep) hnow hlater, hsame]

theorem Parked.step (hparked : Parked origin parent value isolate)
    (honly : isolate.EscapesOnly parent value action)
    (hopen : next.StillOpen origin parent) (hstep : isolate.step action = .ok next) :
    Parked origin parent value next where
  wellFormed := hparked.wellFormed.step hstep
  stillOpen := hopen
  same := by
    rw [hparked.deref_next hopen hstep]
    cases hother : isolate.escapesInto parent action with
    | none => rfl
    | some other => rw [Option.getD_some, honly other hother]
  settled was hwas hclosing :=
    (hparked.settled was hwas hclosing).trans (hparked.wellFormed.toInOrder.slack_le
      (transition_of_step hstep))

/-- Under the invariant a step keeps the denotation exactly when it escapes
nothing else into the parent. -/
theorem Parked.denotes_next_iff (hparked : Parked origin parent value isolate)
    (hopen : next.StillOpen origin parent) (hstep : isolate.step action = .ok next) :
    next.Denotes (.scopeValue parent) value ↔ isolate.EscapesOnly parent value action := by
  constructor
  · intro hdenotes other hother
    have hsame := hdenotes.same
    rw [hparked.deref_next hopen hstep, hother, Option.getD_some] at hsame
    exact Option.some.inj hsame
  · intro honly
    exact (hparked.step honly hopen hstep).denotes

/-- An accepted escape parks its value in the parent, which is on the stack. -/
theorem parked_of_escape {actions : List Action} {address : Nat} {handle : Local}
    {handleScope : HandleScope} {escaped : Isolate}
    (hreached : Isolate.step.run Isolate.new actions = .ok isolate)
    (hscope : scopeAt address isolate.frames = some handleScope)
    (hparent : handleScope.prevScope = some parent)
    (hvalue : isolate.deref handle = some value)
    (hescape : isolate.step (.handle (.escape address handle)) = .ok escaped) :
    Parked isolate parent value escaped := by
  have hwell := wellFormed_of_run hreached
  obtain ⟨_, was, hwas⟩ := (linked_of_run hreached).enclosing address handleScope parent
    hscope hparent
  have htransition := transition_of_step hescape
  have hbalance := held_add_owned hwell.toInOrder htransition
  have hframes : escaped.frames = setScopeValue parent value isolate.frames := by
    cases htransition with
    | escape _ _ other target escapedValue hother htarget hderef =>
        rw [hscope, Option.some.injEq] at hother
        subst other
        rw [hparent, Option.some.injEq] at htarget
        subst target
        rw [hvalue, Option.some.injEq] at hderef
        subst escapedValue
        rfl
  have hnow : scopeAt parent escaped.frames = some { was with scopeValue := value } := by
    rw [hframes, scopeAt_setScopeValue, hwas, Option.map_some, if_pos rfl]
  refine ⟨hwell.step hescape, ⟨was, _, hwas, hnow, fun hclosing => hclosing⟩, ?_, ?_⟩
  · simp only [deref, hnow, Option.map_some]
  · intro same hsame hclosing ptr
    rw [hwas, Option.some.injEq] at hsame
    subst same
    have hlost : isolate.lost (.handle (.escape address handle)) = value.refs := by
      simp only [lost, hscope, Option.bind_some, hparent, hvalue, displacedRefs, hwas, hclosing,
        if_true]
    have hptr := congrFun hbalance ptr
    have howned : isolate.owned ptr ≤ isolate.held ptr := hwell.owned_le ptr
    simp only [hlost, Pi.add_apply] at hptr
    simp only [Pi.sub_apply]
    omega

/-- From an escape on, for as long as the parent has not released its parking
field, the returned handle denotes the escaped value in every state exactly when
every further escape into the same parent escapes that value again. -/
theorem escape_denotes_iff (before after : List Action) (address : Nat) (handle : Local)
    {handleScope : HandleScope} {escaped : Isolate}
    (hreached : Isolate.step.run Isolate.new before = .ok isolate)
    (hscope : scopeAt address isolate.frames = some handleScope)
    (hparent : handleScope.prevScope = some parent)
    (hvalue : isolate.deref handle = some value)
    (hescape : isolate.step (.handle (.escape address handle)) = .ok escaped)
    (hopen : Isolate.step.Always
      (fun _ _ outcome => ∃ next, outcome = .ok next ∧ next.StillOpen isolate parent)
      escaped after) :
    escaped.Denotes (.scopeValue parent) value ∧
      (Isolate.step.Always
          (fun _ _ outcome => ∀ next, outcome = .ok next → next.Denotes (.scopeValue parent) value)
          escaped after ↔
        Isolate.step.Always (fun state action _ => state.EscapesOnly parent value action)
          escaped after) := by
  have hparked := parked_of_escape hreached hscope hparent hvalue hescape
  refine ⟨hparked.denotes, ?_⟩
  apply Isolate.step.always_iff_within (Parked isolate parent value) _ _ hparked hopen
  · rintro state action hstate ⟨next, hnext, hstill⟩
    rw [hnext]
    constructor
    · intro hlaw
      exact (hstate.denotes_next_iff hstill hnext).mp (hlaw next rfl)
    · rintro honly _ ⟨⟩
      exact (hstate.denotes_next_iff hstill hnext).mpr honly
  · rintro state action next hstate honly ⟨_, ⟨⟩, hstill⟩ hnext
    exact hstate.step honly hstill hnext

theorem escape_denotes_iff_nested :
    ∃ isolate escaped, Isolate.step.run Isolate.new nested = .ok isolate ∧
      isolate.step (.handle (.escape 1 (.slot 0))) = .ok escaped ∧
      escaped.Denotes (.scopeValue 0) (.ref .object 0) ∧
      (Isolate.step.Always
          (fun _ _ outcome => ∀ next, outcome = .ok next →
            next.Denotes (.scopeValue 0) (.ref .object 0))
          escaped [.handle (.escape 1 (.slot 0))] ↔
        Isolate.step.Always
          (fun state action _ => state.EscapesOnly 0 (.ref .object 0) action)
          escaped [.handle (.escape 1 (.slot 0))]) := by
  refine ⟨_, _, rfl, rfl,
    escape_denotes_iff nested [.handle (.escape 1 (.slot 0))] 1 (.slot 0)
      rfl rfl rfl rfl rfl ?_⟩
  refine ⟨⟨_, rfl, _, _, rfl, rfl, ?_⟩, fun _ _ => trivial⟩
  intro hclosing
  cases hclosing

/-- A sibling's escape changes what an earlier handle denotes. -/
theorem escape_sibling_overwrites :
    ∃ isolate escaped final handleScope,
      Isolate.step.run Isolate.new nested = .ok isolate ∧
      scopeAt 1 isolate.frames = some handleScope ∧ handleScope.prevScope = some 0 ∧
      isolate.deref (.slot 0) = some (.ref .object 0) ∧
      isolate.step (.handle (.escape 1 (.slot 0))) = .ok escaped ∧
      Isolate.step.run escaped (sibling ++ [.handle (.escape 1 (.slot 0))]) = .ok final ∧
      final.StillOpen isolate 0 ∧ ¬ final.Denotes (.scopeValue 0) (.ref .object 0) := by
  refine ⟨_, _, _, _, rfl, rfl, rfl, rfl, rfl, rfl, ⟨_, _, rfl, rfl, ?_⟩, ?_⟩
  · intro hclosing
    cases hclosing
  · intro hdenotes
    cases hdenotes.same

end Isolate

end QuickjsBackend
