import Mathlib.Order.Defs.Unbundled
import Mathlib.Data.Nat.Notation
import Mathlib.Data.List.Basic

/-! # Programs over a state that may not return

A program takes a state to a value and the state after it, or to nothing when it
does not return. Recursive programs are given by their approximations; the rules
below say how comparing programs, what a program that returns does to the state,
and that a program returns, go through sequences and loops.
-/

namespace Foundation

universe u

abbrev Program (σ α : Type u) := StateT σ Option α

namespace Program

variable {σ α β ι : Type u}

theorem bind_eq_some {first : Program σ α} {rest : α → Program σ β} {state : σ}
    {result : β × σ} : (first >>= rest) state = some result ↔
      ∃ value next, first state = some (value, next) ∧ rest value next = some result := by
  change (first state).bind (fun pair => rest pair.1 pair.2) = some result ↔ _
  rw [Option.bind_eq_some_iff]
  constructor
  · rintro ⟨⟨value, next⟩, hfirst, hrest⟩
    exact ⟨value, next, hfirst, hrest⟩
  · rintro ⟨value, next, hfirst, hrest⟩
    exact ⟨(value, next), hfirst, hrest⟩

theorem map_eq_some {program : Program σ α} {change : α → β} {state : σ} {result : β × σ} :
    (change <$> program) state = some result ↔
      ∃ value, program state = some (value, result.2) ∧ change value = result.1 := by
  rw [map_eq_pure_bind, bind_eq_some]
  constructor
  · rintro ⟨value, next, hprogram, hpure⟩
    cases Option.some.inj hpure
    exact ⟨value, hprogram, rfl⟩
  · rintro ⟨value, hprogram, hchange⟩
    exact ⟨value, result.2, hprogram, congrArg some (Prod.ext hchange rfl)⟩

/-- The second program returns whenever the first does, and the same. -/
def Approximates (first second : Program σ α) : Prop :=
  ∀ state result, first state = some result → second state = some result

section Approximates

theorem Approximates.refl (program : Program σ α) : program.Approximates program :=
  fun _ _ h => h

theorem Approximates.bind {first second : Program σ α} {rest follow : α → Program σ β}
    (hfirst : first.Approximates second)
    (hrest : ∀ value, (rest value).Approximates (follow value)) :
    (first >>= rest).Approximates (second >>= follow) := by
  intro state result hreturns
  obtain ⟨value, next, hvalue, hresult⟩ := bind_eq_some.mp hreturns
  exact bind_eq_some.mpr ⟨value, next, hfirst _ _ hvalue, hrest value _ _ hresult⟩

theorem Approximates.mapM {first second : ι → Program σ α}
    (hprogram : ∀ item, (first item).Approximates (second item)) (item : Option ι) :
    (item.mapM first).Approximates (item.mapM second) := by
  cases item with
  | none => exact .refl _
  | some item =>
      intro state result hreturns
      obtain ⟨value, hvalue, hresult⟩ := map_eq_some.mp hreturns
      exact map_eq_some.mpr ⟨value, hprogram item _ _ hvalue, hresult⟩

theorem Approximates.forM {first second : ι → Program σ PUnit}
    (hprogram : ∀ item, (first item).Approximates (second item)) (items : List ι) :
    (items.forM first).Approximates (items.forM second) := by
  induction items with
  | nil => exact .refl _
  | cons item rest ih => exact (hprogram item).bind fun _ => ih

end Approximates

/-- Where the program returns, the states before and after are related. -/
def Moves (relation : σ → σ → Prop) (program : Program σ α) : Prop :=
  ∀ state value next, program state = some (value, next) → relation state next

section Moves

variable {relation : σ → σ → Prop} [IsPreorder σ relation]

theorem moves_pure (value : α) : Moves relation (pure value : Program σ α) := by
  intro state _ next hreturns
  cases Option.some.inj hreturns
  exact refl_of relation state

theorem Moves.bind {first : Program σ α} {rest : α → Program σ β} (hfirst : first.Moves relation)
    (hrest : ∀ value, (rest value).Moves relation) : (first >>= rest).Moves relation := by
  intro state _ last hreturns
  obtain ⟨value, next, hvalue, hresult⟩ := bind_eq_some.mp hreturns
  exact trans_of relation (hfirst state value next hvalue) (hrest value next _ last hresult)

theorem Moves.mapM {program : ι → Program σ α} (item : Option ι)
    (hprogram : ∀ found ∈ item, (program found).Moves relation) :
    (item.mapM program).Moves relation := by
  cases item with
  | none => exact moves_pure none
  | some item =>
      intro state value next hreturns
      obtain ⟨inner, hinner, _⟩ := map_eq_some.mp hreturns
      exact hprogram item rfl state inner next hinner

theorem Moves.forM {program : ι → Program σ PUnit} (items : List ι)
    (hprogram : ∀ item ∈ items, (program item).Moves relation) :
    (items.forM program).Moves relation := by
  induction items with
  | nil => exact moves_pure PUnit.unit
  | cons item rest ih =>
      exact (hprogram item List.mem_cons_self).bind fun _ =>
        ih fun other hmem => hprogram other (List.mem_cons_of_mem item hmem)

end Moves

/-- Where the program returns, the states before and after are related, and the
items it goes through have the property of the two states. -/
def Visits (relation : σ → σ → Prop) (property : σ → σ → ι → Prop) (items : List ι)
    (program : Program σ α) : Prop :=
  ∀ state value next, program state = some (value, next) →
    relation state next ∧ ∀ item ∈ items, property state next item

section Visits

variable {κ : Type u} {relation : σ → σ → Prop} [IsPreorder σ relation]
  {property : σ → σ → ι → Prop}

/-- The property reaches back to states before, and on to states after. -/
structure Spreads (relation : σ → σ → Prop) (property : σ → σ → ι → Prop) : Prop where
  back : ∀ state next last item, relation state next → property next last item →
    property state last item
  on : ∀ state next last item, property state next item → relation next last →
    property state last item

omit [IsPreorder σ relation] in
theorem visits_of_moves {program : Program σ α} (hprogram : program.Moves relation) :
    program.Visits relation property [] :=
  fun state value next hreturns => ⟨hprogram state value next hreturns, fun _ hmem => nomatch hmem⟩

theorem Visits.bind {first : Program σ α} {rest : α → Program σ β} {items others : List ι}
    (hspreads : Spreads relation property) (hfirst : first.Visits relation property items)
    (hrest : ∀ value, (rest value).Visits relation property others) :
    (first >>= rest).Visits relation property (items ++ others) := by
  intro state _ last hreturns
  obtain ⟨value, next, hvalue, hresult⟩ := bind_eq_some.mp hreturns
  obtain ⟨hstep, hitems⟩ := hfirst state value next hvalue
  obtain ⟨hsteps, hothers⟩ := hrest value next _ last hresult
  refine ⟨trans_of relation hstep hsteps, fun item hmem => ?_⟩
  rcases List.mem_append.mp hmem with hmem | hmem
  · exact hspreads.on state next last item (hitems item hmem) hsteps
  · exact hspreads.back state next last item hstep (hothers item hmem)

theorem Visits.mapM {program : ι → Program σ α}
    (hprogram : ∀ item, (program item).Visits relation property [item]) (item : Option ι) :
    (item.mapM program).Visits relation property item.toList := by
  cases item with
  | none => exact visits_of_moves (moves_pure none)
  | some item =>
      intro state value next hreturns
      obtain ⟨inner, hinner, _⟩ := map_eq_some.mp hreturns
      exact hprogram item state inner next hinner

theorem Visits.forM {program : κ → Program σ PUnit} {items : κ → List ι}
    (hspreads : Spreads relation property)
    (hprogram : ∀ entry, (program entry).Visits relation property (items entry))
    (entries : List κ) :
    (entries.forM program).Visits relation property (entries.flatMap items) := by
  induction entries with
  | nil => exact visits_of_moves (moves_pure PUnit.unit)
  | cons entry rest ih => exact (hprogram entry).bind hspreads fun _ => ih

end Visits

/-- From the states that meet the first condition, the program returns in one that
meets the second. -/
def Returns (before after : σ → Prop) (program : Program σ α) : Prop :=
  ∀ state, before state → ∃ value next, program state = some (value, next) ∧ after next

section Returns

variable {condition : σ → Prop}

theorem returns_pure (value : α) : Returns condition condition (pure value : Program σ α) :=
  fun state hstate => ⟨value, state, rfl, hstate⟩

theorem Returns.bind {before middle after : σ → Prop} {first : Program σ α}
    {rest : α → Program σ β} (hfirst : first.Returns before middle)
    (hrest : ∀ value, (rest value).Returns middle after) :
      (first >>= rest).Returns before after := by
  intro state hstate
  obtain ⟨value, next, hvalue, hnext⟩ := hfirst state hstate
  obtain ⟨result, last, hresult, hlast⟩ := hrest value next hnext
  exact ⟨result, last, bind_eq_some.mpr ⟨value, next, hvalue, hresult⟩, hlast⟩

theorem Returns.mapM {program : ι → Program σ α} (item : Option ι)
    (hprogram : ∀ found ∈ item, (program found).Returns condition condition) :
    (item.mapM program).Returns condition condition := by
  cases item with
  | none => exact returns_pure none
  | some item =>
      intro state hstate
      obtain ⟨value, next, hvalue, hnext⟩ := hprogram item rfl state hstate
      exact ⟨some value, next, map_eq_some.mpr ⟨value, hvalue, rfl⟩, hnext⟩

theorem Returns.forM {program : ι → Program σ PUnit} (items : List ι)
    (hprogram : ∀ item ∈ items, (program item).Returns condition condition) :
    (items.forM program).Returns condition condition := by
  induction items with
  | nil => exact returns_pure PUnit.unit
  | cons item rest ih =>
      exact (hprogram item List.mem_cons_self).bind fun _ =>
        ih fun other hmem => hprogram other (List.mem_cons_of_mem item hmem)

end Returns

end Program

end Foundation
