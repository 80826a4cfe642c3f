import Mathlib.Logic.Basic
import Mathlib.Data.List.Basic

/-! # Runs of a step function that may refuse an action

A step takes a state and an action to the next state or to a fault. Laws are
stated about single steps, seeing the state before, the action, and the
outcome; `Always` carries them along a whole run. The rules below reduce a
statement about all runs to one about a single step from an invariant state.
-/

namespace Foundation

universe uState uAction uFault

/-- A step function; `Except.error` refuses the action. -/
abbrev StepFn (State : Type uState) (Action : Type uAction) (Fault : Type uFault) :=
  State → Action → Except Fault State

/-- What a computation in two parts that did not fail did. -/
theorem bind_eq_ok {ε : Type uFault} {α β : Type uState} {first : Except ε α}
    {rest : α → Except ε β} {result : β} :
    first >>= rest = .ok result ↔ ∃ middle, first = .ok middle ∧ rest middle = .ok result := by
  cases first with
  | ok middle => simp [bind, Except.bind]
  | error fault => simp [bind, Except.bind]

theorem ok_bind {ε : Type uFault} {α β : Type uState} (middle : α) (rest : α → Except ε β) :
    (Except.ok middle : Except ε α) >>= rest = rest middle := rfl

/-- A first part with two branches, of which the one taken did not fail. -/
theorem ite_bind_eq {ε : Type uFault} {α β : Type uState} {c : Prop} [Decidable c]
    {first other : Except ε α} {rest : α → Except ε β} {middle : α}
    (hfirst : (if c then first else other) = .ok middle) :
    (if c then first >>= rest else other >>= rest) = rest middle := by
  split at hfirst <;> rename_i hc <;> simp [hc, hfirst, bind, Except.bind]

/-- What a first part with two branches did that did not fail. -/
theorem ite_bind_eq_ok {ε : Type uFault} {α β : Type uState} {c : Prop} [Decidable c]
    {first other : Except ε α} {rest : α → Except ε β} {result : β} :
    (if c then first >>= rest else other >>= rest) = .ok result ↔
      ∃ middle, (if c then first else other) = .ok middle ∧ rest middle = .ok result := by
  split <;> exact bind_eq_ok

namespace StepFn

variable {State : Type uState} {Action : Type uAction} {Fault : Type uFault}
variable (step : StepFn State Action Fault)

/-- Perform the actions in order, up to the first fault. -/
def run (start : State) : List Action → Except Fault State
  | [] => .ok start
  | action :: rest =>
      match step start action with
      | .ok next => run next rest
      | .error fault => .error fault

/-- The law holds of every step performed along the actions, the first refused
one included. Nothing is asked of the actions after a fault. -/
def Always (law : State → Action → Except Fault State → Prop) : State → List Action → Prop
  | _, [] => True
  | state, action :: rest =>
      law state action (step state action) ∧
        ∀ next, step state action = .ok next → Always law next rest

/-- Whether a law that can be checked at each step holds along a run can be checked. -/
instance decidableAlways (law : State → Action → Except Fault State → Prop)
    [∀ state action outcome, Decidable (law state action outcome)] :
    ∀ (start : State) (actions : List Action), Decidable (step.Always law start actions)
  | _, [] => isTrue trivial
  | start, action :: rest =>
      let tail : Decidable (∀ next, step start action = .ok next → step.Always law next rest) :=
        match hstep : step start action with
        | .ok next =>
            match decidableAlways law next rest with
            | isTrue hrest => isTrue fun other hother => by
                rwa [← Except.ok.inj hother]
            | isFalse hrest => isFalse fun hall => hrest (hall next rfl)
        | .error _ => isTrue fun _ hother => by cases hother
      inferInstanceAs (Decidable (_ ∧ _))

/-- Two step functions on one state, for actions of either kind. -/
def sum {Other : Type*} (other : StepFn State Other Fault) : StepFn State (Action ⊕ Other) Fault :=
  fun state action => action.elim (step state) (other state)

@[simp] theorem sum_inl {Other : Type*} (other : StepFn State Other Fault) (state : State)
    (action : Action) : step.sum other state (.inl action) = step state action := rfl

@[simp] theorem sum_inr {Other : Type*} (other : StepFn State Other Fault) (state : State)
    (action : Other) : step.sum other state (.inr action) = other state action := rfl

@[simp] theorem run_nil (start : State) : step.run start [] = .ok start := rfl

theorem run_cons_ok {start next : State} {action : Action} (rest : List Action)
    (hstep : step start action = .ok next) :
    step.run start (action :: rest) = step.run next rest := by
  simp only [run, hstep]

/-- A run that succeeds took its first step and then succeeded on the rest. -/
theorem exists_of_run_cons {start final : State} {action : Action} {rest : List Action}
    (hrun : step.run start (action :: rest) = .ok final) :
    ∃ next, step start action = .ok next ∧ step.run next rest = .ok final := by
  simp only [run] at hrun
  cases hstep : step start action with
  | ok next => exact ⟨next, rfl, by simpa only [hstep] using hrun⟩
  | error fault => simp only [hstep, reduceCtorEq] at hrun

/-- A run goes on where one before it ended. -/
theorem run_append_ok {start middle : State} {actions : List Action}
    (hrun : step.run start actions = .ok middle) (rest : List Action) :
    step.run start (actions ++ rest) = step.run middle rest := by
  induction actions generalizing start with
  | nil =>
      simp only [run_nil, Except.ok.injEq] at hrun
      rw [hrun, List.nil_append]
  | cons action actions ih =>
      obtain ⟨next, hnext, hrest⟩ := step.exists_of_run_cons hrun
      rw [List.cons_append, step.run_cons_ok _ hnext, ih hrest]

/-- Run rule: an invariant kept by every step that meets its guard is kept by
every run whose steps all meet it. -/
theorem run_invariant (guard : State → Action → Prop) (invariant : State → Prop)
    (hstep : ∀ state action next, invariant state → guard state action →
      step state action = .ok next → invariant next)
    {start final : State} {actions : List Action} (hstart : invariant start)
    (hguard : step.Always (fun state action _ => guard state action) start actions)
    (hrun : step.run start actions = .ok final) : invariant final := by
  induction actions generalizing start with
  | nil =>
      simp only [run_nil, Except.ok.injEq] at hrun
      subst final
      exact hstart
  | cons action rest ih =>
      obtain ⟨next, hnext, hrest⟩ := step.exists_of_run_cons hrun
      exact ih (hstep start action next hstart hguard.1 hnext) (hguard.2 next hnext) hrest

theorem always_true (start : State) (actions : List Action) :
    step.Always (fun _ _ _ => True) start actions := by
  induction actions generalizing start with
  | nil => trivial
  | cons action rest ih => exact ⟨trivial, fun next _ => ih next⟩

/-- What holds of every action does so along the run. -/
theorem always_of_mem {guard : Action → Prop} {start : State} {actions : List Action}
    (hguard : ∀ action ∈ actions, guard action) :
    step.Always (fun _ action _ => guard action) start actions := by
  induction actions generalizing start with
  | nil => trivial
  | cons action rest ih =>
      exact ⟨hguard action List.mem_cons_self,
        fun _ _ => ih fun other hmem => hguard other (List.mem_cons_of_mem _ hmem)⟩

/-- No step of a successful run is refused. -/
theorem always_ok_of_run {start final : State} {actions : List Action}
    (hrun : step.run start actions = .ok final) :
    step.Always (fun _ _ outcome => ∃ next, outcome = .ok next) start actions := by
  induction actions generalizing start with
  | nil => trivial
  | cons action rest ih =>
      obtain ⟨next, hnext, hrest⟩ := step.exists_of_run_cons hrun
      refine ⟨⟨next, hnext⟩, fun other hother => ?_⟩
      rw [hnext, Except.ok.injEq] at hother
      subst other
      exact ih hrest

/-- A law holds along a run and where it goes on. -/
theorem always_append {law : State → Action → Except Fault State → Prop} {start middle : State}
    {actions rest : List Action} (hrun : step.run start actions = .ok middle)
    (hfirst : step.Always law start actions) (hrest : step.Always law middle rest) :
    step.Always law start (actions ++ rest) := by
  induction actions generalizing start with
  | nil =>
      simp only [run_nil, Except.ok.injEq] at hrun
      subst middle
      exact hrest
  | cons action actions ih =>
      refine ⟨hfirst.1, fun next hnext => ih ?_ (hfirst.2 next hnext)⟩
      rwa [step.run_cons_ok actions hnext] at hrun

theorem always_mono {law weaker : State → Action → Except Fault State → Prop}
    (himp : ∀ state action outcome, law state action outcome → weaker state action outcome)
    {start : State} {actions : List Action} (halways : step.Always law start actions) :
    step.Always weaker start actions := by
  induction actions generalizing start with
  | nil => trivial
  | cons action rest ih =>
      exact ⟨himp _ _ _ halways.1, fun next hnext => ih (halways.2 next hnext)⟩

theorem always_and {law other : State → Action → Except Fault State → Prop} {start : State}
    {actions : List Action} (hlaw : step.Always law start actions)
    (hother : step.Always other start actions) :
    step.Always (fun state action outcome => law state action outcome ∧ other state action outcome)
      start actions := by
  induction actions generalizing start with
  | nil => trivial
  | cons action rest ih =>
      exact ⟨⟨hlaw.1, hother.1⟩, fun next hnext => ih (hlaw.2 next hnext) (hother.2 next hnext)⟩

theorem always_and_iff {law other : State → Action → Except Fault State → Prop} {start : State}
    {actions : List Action} :
    step.Always law start actions ∧ step.Always other start actions ↔
      step.Always (fun state action outcome => law state action outcome ∧
        other state action outcome) start actions :=
  ⟨fun ⟨hlaw, hother⟩ => step.always_and hlaw hother,
    fun hall => ⟨step.always_mono (fun _ _ _ hlaw => hlaw.1) hall,
      step.always_mono (fun _ _ _ hlaw => hlaw.2) hall⟩⟩

theorem always_ne_error_of_run (fault : Fault) {start final : State} {actions : List Action}
    (hrun : step.run start actions = .ok final) :
    step.Always (fun _ _ outcome => outcome ≠ .error fault) start actions := by
  refine step.always_mono ?_ (step.always_ok_of_run hrun)
  rintro _ _ _ ⟨next, rfl⟩
  simp only [ne_eq, reduceCtorEq, not_false_eq_true]

/-- Progress rule: when an invariant state lets every action under the guard happen, a run
whose steps all meet the guard gets to its end. -/
theorem exists_run {guard : State → Action → Prop} (invariant : State → Prop)
    (hstep : ∀ state action, invariant state → guard state action →
      ∃ next, step state action = .ok next ∧ invariant next)
    {start : State} {actions : List Action} (hstart : invariant start)
    (hguard : step.Always (fun state action _ => guard state action) start actions) :
    ∃ final, step.run start actions = .ok final ∧ invariant final := by
  induction actions generalizing start with
  | nil => exact ⟨start, rfl, hstart⟩
  | cons action rest ih =>
      obtain ⟨next, hnext, hinvariant⟩ := hstep start action hstart hguard.1
      obtain ⟨final, hfinal, hlast⟩ := ih hinvariant (hguard.2 next hnext)
      exact ⟨final, by rw [step.run_cons_ok rest hnext, hfinal], hlast⟩

/-- Simulation rule: when each step that succeeds on an abstract state succeeds and does the
same on the states related to it, so does a run. -/
theorem exists_run_of_simulation {Abstract AbstractFault : Type*}
    (abstractStep : StepFn Abstract Action AbstractFault) (related : State → Abstract → Prop)
    (hstep : ∀ state abstract action abstractNext, related state abstract →
      abstractStep abstract action = .ok abstractNext →
      ∃ next, step state action = .ok next ∧ related next abstractNext)
    {start : State} {abstract last : Abstract} {actions : List Action}
    (hstart : related start abstract) (hrun : abstractStep.run abstract actions = .ok last) :
    ∃ final, step.run start actions = .ok final ∧ related final last := by
  induction actions generalizing start abstract with
  | nil =>
      simp only [run_nil, Except.ok.injEq] at hrun
      subst last
      exact ⟨start, rfl, hstart⟩
  | cons action rest ih =>
      obtain ⟨middle, hmiddle, hrest⟩ := abstractStep.exists_of_run_cons hrun
      obtain ⟨next, hnext, hrelated⟩ := hstep start abstract action middle hstart hmiddle
      obtain ⟨final, hfinal, hlast⟩ := ih hrelated hrest
      exact ⟨final, by rw [step.run_cons_ok rest hnext, hfinal], hlast⟩

/-- The run rule without a guard. -/
theorem run_invariant_of_step (invariant : State → Prop)
    (hstep : ∀ state action next, invariant state →
      step state action = .ok next → invariant next)
    {start final : State} {actions : List Action} (hstart : invariant start)
    (hrun : step.run start actions = .ok final) : invariant final :=
  step.run_invariant (fun _ _ => True) invariant
    (fun state action next hstate _ => hstep state action next hstate)
    hstart (step.always_true start actions) hrun

/-- The run rule for a law: from an invariant start, a law that each step meets under
the guard holds along every run whose steps all meet it. -/
theorem always_of_guard {guard : State → Action → Prop}
    {law : State → Action → Except Fault State → Prop} (invariant : State → Prop)
    (hlaw : ∀ state action, invariant state → guard state action →
      law state action (step state action))
    (hstep : ∀ state action next, invariant state → guard state action →
      step state action = .ok next → invariant next)
    {start : State} {actions : List Action} (hstart : invariant start)
    (hguard : step.Always (fun state action _ => guard state action) start actions) :
    step.Always law start actions := by
  induction actions generalizing start with
  | nil => trivial
  | cons action rest ih =>
      exact ⟨hlaw start action hstart hguard.1, fun next hnext =>
        ih (hstep start action next hstart hguard.1 hnext) (hguard.2 next hnext)⟩

/-- From an invariant start, among runs that stay within a condition: a law that
each step meets exactly under the guard holds along a run exactly when the
guard does. -/
theorem always_iff_within {guard : State → Action → Prop}
    {within law : State → Action → Except Fault State → Prop} (invariant : State → Prop)
    (hlaw : ∀ state action, invariant state → within state action (step state action) →
      (law state action (step state action) ↔ guard state action))
    (hstep : ∀ state action next, invariant state → guard state action →
      within state action (.ok next) → step state action = .ok next → invariant next)
    {start : State} {actions : List Action} (hstart : invariant start)
    (hwithin : step.Always within start actions) :
    step.Always law start actions ↔
      step.Always (fun state action _ => guard state action) start actions := by
  induction actions generalizing start with
  | nil => exact Iff.rfl
  | cons action rest ih =>
      have hhead := hlaw start action hstart hwithin.1
      have htail : guard start action → ∀ next, step start action = .ok next →
          (step.Always law next rest ↔
            step.Always (fun state action _ => guard state action) next rest) := by
        intro hguard next hnext
        have hnow := hwithin.1
        rw [hnext] at hnow
        exact ih (hstep start action next hstart hguard hnow hnext) (hwithin.2 next hnext)
      constructor
      · rintro ⟨hlawful, hrest⟩
        have hguard := hhead.mp hlawful
        exact ⟨hguard, fun next hnext => (htail hguard next hnext).mp (hrest next hnext)⟩
      · rintro ⟨hguard, hrest⟩
        exact ⟨hhead.mpr hguard, fun next hnext => (htail hguard next hnext).mpr (hrest next hnext)⟩

/-- The same over all runs. -/
theorem always_iff_of_invariant {guard : State → Action → Prop}
    {law : State → Action → Except Fault State → Prop} (invariant : State → Prop)
    (hlaw : ∀ state action, invariant state →
      (law state action (step state action) ↔ guard state action))
    (hstep : ∀ state action next, invariant state → guard state action →
      step state action = .ok next → invariant next)
    {start : State} (actions : List Action) (hstart : invariant start) :
    step.Always law start actions ↔
      step.Always (fun state action _ => guard state action) start actions :=
  step.always_iff_within invariant
    (fun state action hstate _ => hlaw state action hstate)
    (fun state action next hstate hguard _ => hstep state action next hstate hguard)
    hstart (step.always_true start actions)

/-- `Always` speaks about exactly the steps taken from the states a run reaches. -/
theorem always_iff_forall_reached {law : State → Action → Except Fault State → Prop}
    {start : State} {actions : List Action} :
    step.Always law start actions ↔
      ∀ before action after reached, actions = before ++ action :: after →
        step.run start before = .ok reached → law reached action (step reached action) := by
  induction actions generalizing start with
  | nil => simp [Always]
  | cons head rest ih =>
      constructor
      · rintro ⟨hhead, htail⟩ before action after reached hsplit hrun
        cases before with
        | nil =>
            simp only [List.nil_append, List.cons.injEq] at hsplit
            simp only [run_nil, Except.ok.injEq] at hrun
            obtain ⟨rfl, rfl⟩ := hsplit
            subst reached
            exact hhead
        | cons first before =>
            simp only [List.cons_append, List.cons.injEq] at hsplit
            obtain ⟨rfl, hsplit⟩ := hsplit
            obtain ⟨next, hnext, hrest⟩ := step.exists_of_run_cons hrun
            exact ih.mp (htail next hnext) before action after reached hsplit hrest
      · intro hall
        refine ⟨hall [] head rest start rfl rfl, fun next hnext => ih.mpr ?_⟩
        intro before action after reached hsplit hrun
        apply hall (head :: before) action after reached (by rw [hsplit, List.cons_append])
        rw [step.run_cons_ok _ hnext, hrun]

end StepFn

end Foundation
