import Mathlib.Logic.Basic

/-! # Programs over a state that may fault

A program takes a state to a value and the state after it, or to a fault. That it
completes with a postcondition is the total form of a triple; the rules below are
equivalences, so that a sequence is taken apart from its first step on.
-/

namespace Foundation

universe u

variable {σ ε α β : Type u}

abbrev Faulting (ε σ α : Type u) := StateT σ (Except ε) α

namespace Faulting

/-- The program returns, and value and state are as said. -/
def Completes (program : Faulting ε σ α) (state : σ) (post : α → σ → Prop) : Prop :=
  ∃ value next, program state = .ok (value, next) ∧ post value next

variable {program : Faulting ε σ α} {state next : σ} {value : α} {fault : ε}
  {post : α → σ → Prop}

theorem bind_of_ok (rest : α → Faulting ε σ β) (heq : program state = .ok (value, next)) :
    (program >>= rest) state = rest value next := by
  change (program state >>= fun result => rest result.1 result.2) = _
  rw [heq]
  rfl

theorem bind_of_error (rest : α → Faulting ε σ β) (heq : program state = .error fault) :
    (program >>= rest) state = .error fault := by
  change (program state >>= fun result => rest result.1 result.2) = _
  rw [heq]
  rfl

theorem map_of_eq {first second : Faulting ε σ α} (change : α → β)
    (heq : first state = second state) : (change <$> first) state = (change <$> second) state := by
  change (first state >>= fun result => pure (change result.1, result.2)) = _
  rw [heq]
  rfl

theorem completes_of_ok (heq : program state = .ok (value, next)) :
    program.Completes state post ↔ post value next := by
  constructor
  · rintro ⟨other, after, hother, hpost⟩
    rw [heq] at hother
    cases hother
    exact hpost
  · exact fun hpost => ⟨value, next, heq, hpost⟩

theorem not_completes_of_error (heq : program state = .error fault) :
    ¬program.Completes state post := by
  rintro ⟨value, next, hok, -⟩
  rw [heq] at hok
  cases hok

theorem completes_congr {first second : Faulting ε σ α} (heq : first state = second state) :
    first.Completes state post ↔ second.Completes state post := by
  unfold Completes
  rw [heq]

@[simp] theorem completes_pure :
    Completes (pure value : Faulting ε σ α) state post ↔ post value state :=
  completes_of_ok rfl

@[simp] theorem completes_throw :
    ¬Completes (throw fault : Faulting ε σ α) state post :=
  not_completes_of_error rfl

@[simp] theorem completes_bind {rest : α → Faulting ε σ β} {post : β → σ → Prop} :
    Completes (program >>= rest) state post ↔
      program.Completes state fun value next => (rest value).Completes next post := by
  cases heq : program state with
  | error fault =>
      exact iff_of_false (not_completes_of_error (bind_of_error rest heq))
        (not_completes_of_error heq)
  | ok result =>
      rw [completes_of_ok heq]
      unfold Completes
      rw [bind_of_ok rest heq]

@[simp] theorem completes_map {change : α → β} {post : β → σ → Prop} :
    Completes (change <$> program) state post ↔
      program.Completes state fun value next => post (change value) next := by
  rw [← bind_pure_comp, completes_bind]
  simp only [completes_pure]

theorem Completes.mono {other : α → σ → Prop} (hcompletes : program.Completes state post)
    (himp : ∀ value next, post value next → other value next) : program.Completes state other := by
  obtain ⟨value, next, heq, hpost⟩ := hcompletes
  exact ⟨value, next, heq, himp value next hpost⟩

end Faulting

end Foundation
