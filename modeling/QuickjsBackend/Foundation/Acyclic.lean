import Mathlib.Data.Fintype.Card
import Mathlib.Data.Set.Finite.Basic
import Mathlib.Logic.Relation

/-! # Cycles and accessibility

Where only finitely many elements lead to one, it is accessible exactly when none
of them lies on a cycle.
-/

namespace Foundation

open Relation

universe u

variable {α : Type u} {r : α → α → Prop} {a b : α}

theorem not_transGen_self_of_acc (hacc : Acc r a) : ¬ TransGen r a a := by
  have hall := hacc.transGen
  clear hacc
  induction hall with
  | intro a _ ih => exact fun hcycle => ih a hcycle hcycle

theorem acc_of_no_cycle (hfinite : {b | ReflTransGen r b a}.Finite)
    (hcycle : ∀ b, ReflTransGen r b a → ¬ TransGen r b b) : Acc r a := by
  let Reaching := {b // ReflTransGen r b a}
  have : Finite Reaching := hfinite
  let above : Reaching → Reaching → Prop := fun first second => TransGen r first.1 second.1
  have : IsTrans Reaching above := ⟨fun _ _ _ => TransGen.trans⟩
  have : Std.Irrefl above := ⟨fun first => hcycle first.1 first.2⟩
  have hwell : WellFounded above := Finite.wellFounded_of_trans_of_irrefl above
  have hall : ∀ first : Reaching, Acc r first.1 := by
    intro first
    induction hwell.apply first with
    | intro first _ ih =>
        refine Acc.intro _ fun other hother => ?_
        exact ih ⟨other, .head hother first.2⟩ (.single hother)
  exact hall ⟨a, .refl⟩

end Foundation
