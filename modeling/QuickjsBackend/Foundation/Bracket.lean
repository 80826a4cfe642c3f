import Mathlib.Data.List.Basic

/-! # Brackets

A stack of activities that each begin in some state and leave another to what
happens inside them. They end in the reverse order, and an activity that puts back
what it found makes the one around it go on from where it was.
-/

namespace Foundation

universe uActivity uState

/-- An activity, the state it was opened in and the state it has for what is inside. -/
structure Enclosure (Activity : Type uActivity) (State : Type uState) where
  activity : Activity
  opened : State
  entered : State

variable {Activity : Type uActivity} {State : Type uState}

/-- The state is that of the innermost bracket, and each was opened in the state of
the one around it, the outermost in the base. -/
def Nested (base : State) : State → List (Enclosure Activity State) → Prop
  | state, [] => state = base
  | state, bracket :: rest => state = bracket.entered ∧ Nested base bracket.opened rest

/-- A bracket is opened, the innermost one goes on, or it is closed. -/
inductive Bracketing : State → List (Enclosure Activity State) → State →
    List (Enclosure Activity State) → Prop
  | stay {state : State} {stack : List (Enclosure Activity State)} :
      Bracketing state stack state stack
  | start {state : State} {stack : List (Enclosure Activity State)} (activity : Activity)
      (after : State) :
      Bracketing state stack after (⟨activity, state, after⟩ :: stack)
  | advance {state after : State} {bracket next : Enclosure Activity State}
      {rest : List (Enclosure Activity State)} (hopened : next.opened = bracket.opened)
      (hentered : next.entered = after) :
      Bracketing state (bracket :: rest) after (next :: rest)
  | finish {state after : State} {bracket : Enclosure Activity State}
      {rest : List (Enclosure Activity State)} (hafter : after = bracket.opened) :
      Bracketing state (bracket :: rest) after rest

namespace Nested

variable {base state next : State} {stack after : List (Enclosure Activity State)}

theorem start (hnested : Nested base state stack) (activity : Activity) (inside : State) :
    Nested base inside (⟨activity, state, inside⟩ :: stack) := ⟨rfl, hnested⟩

theorem bracketing (hnested : Nested base state stack) (hstep : Bracketing state stack next after) :
    Nested base next after := by
  cases hstep with
  | stay => exact hnested
  | start activity => exact hnested.start activity next
  | advance hopened hentered => exact ⟨hentered.symm, hopened ▸ hnested.2⟩
  | finish hafter => exact hafter ▸ hnested.2

end Nested

end Foundation
