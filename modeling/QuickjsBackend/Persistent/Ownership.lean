import QuickjsBackend.Foundation.Span
import QuickjsBackend.Handle.Invariant
import QuickjsBackend.Persistent.Transition

/-! # What persistent handles own

Each strong `Global` object has one of the references that the engine counts, besides
those of the handles and of the other owners, and every operation moves the counts by
what the objects gain or give up. What can go wrong: moving from an object leaves it
non-empty, operations on an empty handle or an empty object read through a null
pointer, and a weak callback that comes back to an object whose `Reset()` has set it
off gives the same reference up again.
-/

namespace QuickjsBackend

open Foundation

/-- The reference that goes with an entry of the table: one for a strong object,
none for a weak, an empty or a destroyed one. -/
def entryRefs : Option Global → Ptr → Int
  | none => 0
  | some global => if global.owns then global.store.refs else 0

/-- One reference for each strong object. -/
def strongRefs (globals : List (Option Global)) : Ptr → Int :=
  span entryRefs none globals 0 globals.length

/-- The object whose reference an operation gives up if it is strong. -/
def GlobalOp.givesUp : GlobalOp → Option Nat
  | .setWeak id _ _ => some id
  | op => op.resets.map Prod.fst

/-- The action is an operation on objects, or the rest of one. -/
def WorldAction.OnGlobals : WorldAction → Prop
  | .global _ | .resume => True
  | .newInstance _ _ | .isolate _ => False

namespace World

variable (world : World)

/-- The counted references that are of no handle, no object and no other owner. -/
def spare : Ptr → Int :=
  world.isolate.held - world.isolate.owned - strongRefs world.globals

/-- What an operation gives up although it was given up before: the reference of an
object whose `Reset()` is inside `DecRef`. -/
def overReleased : WorldAction → Ptr → Int
  | .global op =>
      match op.givesUp.bind world.global with
      | some global => if global.isStrong && global.released then global.store.refs else 0
      | none => 0
  | _ => 0

/-- What `Reset()` clears from behind `DecRef` although the object has it again. -/
def leaked : WorldAction → Ptr → Int
  | .resume =>
      match world.resets with
      | (id, _) :: _ => entryRefs (world.global id)
      | [] => 0
  | _ => 0

variable {world} {next : World} {id : Nat} {global : Global} {action : WorldAction}

section Books

theorem strongRefs_setGlobal (entry : Option Global) (hid : id < world.globals.length) :
    strongRefs (world.setGlobal id entry).globals + entryRefs (world.global id) =
      strongRefs world.globals + entryRefs entry := by
  simp only [strongRefs, setGlobal, List.length_set]
  exact span_set (Nat.zero_le id) hid hid

theorem strongRefs_construct (entry : Global) :
    strongRefs (world.construct entry).globals =
      strongRefs world.globals + entryRefs (some entry) := by
  simp only [strongRefs, construct, List.length_append, List.length_singleton]
  exact span_append (Nat.zero_le _)

theorem entryRefs_nonneg (entry : Option Global) : 0 ≤ entryRefs entry := by
  cases entry with
  | none => exact le_refl 0
  | some global =>
      simp only [entryRefs]
      split
      · exact global.store.refs_nonneg
      · exact le_refl 0

theorem entryRefs_of_not_owns (howns : global.owns = false) : entryRefs (some global) = 0 := by
  simp only [entryRefs, howns, Bool.false_eq_true, if_false]

theorem entryRefs_of_not_strong (hstrong : global.isStrong = false) :
    entryRefs (some global) = 0 :=
  entryRefs_of_not_owns (by simp only [Global.owns, hstrong, Bool.false_and])

theorem entryRefs_released : entryRefs (some { global with released := true }) = 0 :=
  entryRefs_of_not_owns (by simp [Global.owns])

theorem entryRefs_movedFrom : entryRefs (some global.movedFrom) = 0 :=
  entryRefs_of_not_strong (by simp [Global.movedFrom, Global.isStrong])

theorem entryRefs_cleared : entryRefs (some global.cleared) = 0 :=
  entryRefs_of_not_strong (by simp [Global.cleared, Global.isStrong])

theorem entryRefs_weakened (callback parameter : Nat) :
    entryRefs (some (global.weakened callback parameter)) = 0 :=
  entryRefs_of_not_strong (by simp [Global.weakened, Global.isStrong])

theorem entryRefs_strong (value : JSValue) : entryRefs (some (.strong id value)) = value.refs := rfl

/-- A move takes the reference of the source along. -/
theorem entryRefs_takeOver (target : Nat) (hval : global.val.isSome = true) :
    entryRefs (some (.takeOver target global global.store)) = entryRefs (some global) := by
  simp [entryRefs, Global.owns, Global.takeOver, Global.isStrong, hval]

theorem spare_setGlobal (entry : Option Global) (hid : id < world.globals.length) :
    (world.setGlobal id entry).spare + entryRefs entry =
      world.spare + entryRefs (world.global id) := by
  have hset := strongRefs_setGlobal entry hid
  have hstrong : strongRefs (world.setGlobal id entry).globals =
      strongRefs world.globals + entryRefs entry - entryRefs (world.global id) :=
    eq_sub_of_add_eq hset
  simp only [spare, hstrong]
  simp only [setGlobal]
  abel

theorem spare_construct (entry : Global) :
    (world.construct entry).spare + entryRefs (some entry) = world.spare := by
  simp only [spare, strongRefs_construct]
  simp only [construct]
  abel

theorem spare_construct_empty : (world.construct .empty).spare = world.spare := by
  have hempty : (world.construct .empty).spare + 0 = world.spare := spare_construct .empty
  rwa [add_zero] at hempty

theorem spare_incRef (value : JSValue) :
    (world.incRef value).spare = world.spare + value.refs := by
  have hheld : (world.incRef value).isolate.held = world.isolate.held + value.refs :=
    Isolate.held_take (Runtime.dupValueRT_refCount value) rfl
  simp only [spare, hheld]
  simp only [incRef, Isolate.owned]
  abel

theorem spare_decRef (value : JSValue) :
    (world.decRef value).spare + value.refs = world.spare := by
  have hheld : (world.decRef value).isolate.held = world.isolate.held - value.refs :=
    Isolate.held_give (Runtime.freeValueRT_refCount value) rfl
  simp only [spare, hheld]
  simp only [decRef, Isolate.owned]
  abel

theorem spare_clone (horder : world.isolate.InOrder) (value : JSValue) :
    (world.clone value).spare = world.spare := by
  have howned : (world.clone value).isolate.owned = world.isolate.owned + value.refs :=
    Isolate.owned_copyToSlot horder value
  have hheld : (world.clone value).isolate.held = world.isolate.held + value.refs :=
    Isolate.held_copyToSlot value
  simp only [spare, howned, hheld]
  simp only [clone]
  abel

theorem spare_setUserData (value : JSValue) (callback parameter : Nat) :
    (world.setUserData value callback parameter).spare = world.spare := by
  unfold World.setUserData
  split <;> rfl

theorem spare_suspend (cont : ResetCont) (hglobal : world.global id = some global) :
    (world.suspend id global cont).spare = world.spare + entryRefs (some global) := by
  have hset := spare_setGlobal (some { global with released := true })
    (lt_length_of_global hglobal)
  rw [entryRefs_released, add_zero, hglobal] at hset
  exact hset

/-- A strong object owns its reference unless `Reset()` has given it up. -/
theorem entryRefs_add_released (hstrong : global.isStrong = true) :
    entryRefs (some global) +
      (if global.isStrong && global.released then global.store.refs else 0) =
        global.store.refs := by
  cases hreleased : global.released with
  | false => simp [entryRefs, Global.owns, hstrong, hreleased]
  | true => simp [entryRefs, Global.owns, hstrong, hreleased]

/-- What `Reset()` gives up is what the object owns, and more if it owns nothing. -/
theorem spare_giveUp (hglobal : world.global id = some global) :
    (world.giveUp global).spare + entryRefs (world.global id) +
      (if global.isStrong && global.released then global.store.refs else 0) = world.spare := by
  rw [hglobal, add_assoc]
  unfold giveUp
  cases hstrong : global.isStrong with
  | false =>
      simp only [Bool.false_eq_true, if_false, Bool.false_and, entryRefs_of_not_strong hstrong,
        add_zero]
  | true =>
      have howed := entryRefs_add_released hstrong
      rw [hstrong] at howed
      rw [if_pos rfl, howed, spare_decRef]

/-- After `DecRef` the entry is overwritten with what goes with its new reference. -/
theorem Proceeds.spare {cont : ResetCont} (hproceeds : Proceeds world id cont next) :
    next.spare = world.spare + entryRefs (world.global id) := by
  cases hproceeds with
  | reset global hglobal =>
      rw [← spare_setGlobal (some global.cleared) (lt_length_of_global hglobal),
        entryRefs_cleared, add_zero]
  | resetTo global handle value hglobal =>
      have hset := spare_setGlobal (some (.strong id value))
        (show id < (world.incRef value).globals.length from lt_length_of_global hglobal)
      rw [entryRefs_strong, spare_incRef, add_right_comm] at hset
      exact add_right_cancel hset
  | moveAssignEmpty global source rhs hglobal =>
      rw [← spare_setGlobal (some global.cleared) (lt_length_of_global hglobal),
        entryRefs_cleared, add_zero]
  | moveAssign global source rhs hne hglobal hrhs hval =>
      have hset := spare_setGlobal (some (.takeOver id rhs rhs.store))
        (lt_length_of_global hglobal)
      have hsource : (world.setGlobal id (some (.takeOver id rhs rhs.store))).global source =
          some rhs := (global_setGlobal_of_ne hne).trans hrhs
      have hmove := spare_setGlobal (some rhs.movedFrom) (lt_length_of_global hsource)
      rw [entryRefs_movedFrom, add_zero, hsource] at hmove
      rw [entryRefs_takeOver _ (by simp [hval])] at hset
      rw [hmove, hset]
  | destroy global hglobal =>
      have hset := spare_setGlobal none (lt_length_of_global hglobal)
      rw [show entryRefs none = 0 from rfl, add_zero] at hset
      exact hset

end Books

section Slots

variable (world next) in
/-- The slots and the stack are as they were. -/
structure SameSlots : Prop where
  values : next.isolate.values = world.isolate.values
  valueAllocPos : next.isolate.valueAllocPos = world.isolate.valueAllocPos
  frames : next.isolate.frames = world.isolate.frames

theorem SameSlots.giveUp {global : Global} (hsame : (world.giveUp global).SameSlots next) :
    world.SameSlots next := by
  unfold World.giveUp at hsame
  split at hsame
  · exact ⟨hsame.values, hsame.valueAllocPos, hsame.frames⟩
  · exact hsame

theorem Proceeds.sameSlots {cont : ResetCont} (hproceeds : Proceeds world id cont next) :
    world.SameSlots next := by
  cases hproceeds <;> exact ⟨rfl, rfl, rfl⟩

/-- What an operation does to the slots and the stack: a step of the handle layer, a
copy in a slot, or nothing. -/
theorem handles_of_transition (hnext : Transition world action next) :
    (∃ op, action = .isolate op ∧ Isolate.Transition world.isolate op next.isolate) ∨
      (∃ id global, action = .global (.get id) ∧ world.global id = some global ∧
        next = world.clone global.store) ∨
      (world.SameSlots next ∧ (∀ op, action ≠ .isolate op) ∧
        ∀ id, action ≠ .global (.get id)) := by
  cases hnext with
  | isolate op isolate hstep => exact Or.inl ⟨op, rfl, Isolate.transition_of_step hstep⟩
  | get id global hglobal => exact Or.inr (Or.inl ⟨id, global, rfl, hglobal, rfl⟩)
  | setWeak id global callback parameter =>
      refine Or.inr (Or.inr ⟨?_, by simp, by simp⟩)
      simp only [World.decRef, World.setUserData]
      split <;> exact ⟨rfl, rfl, rfl⟩
  | release op id cont global next hop hglobal hlast hproceeds =>
      refine Or.inr (Or.inr ⟨hproceeds.sameSlots.giveUp, by simp, ?_⟩)
      rintro other heq
      cases heq
      cases hop
  | suspend op id cont global hop =>
      refine Or.inr (Or.inr ⟨⟨rfl, rfl, rfl⟩, by simp, ?_⟩)
      rintro other heq
      cases heq
      cases hop
  | resume id cont rest next hresets hproceeds =>
      have hsame := hproceeds.sameSlots
      exact Or.inr (Or.inr ⟨⟨hsame.values, hsame.valueAllocPos, hsame.frames⟩, by simp, by simp⟩)
  | _ => exact Or.inr (Or.inr ⟨⟨rfl, rfl, rfl⟩, by simp, by simp⟩)

theorem inOrder_transition (horder : world.isolate.InOrder) (hnext : Transition world action next) :
    next.isolate.InOrder := by
  rcases handles_of_transition hnext with ⟨op, rfl, hop⟩ | ⟨id, global, rfl, _, rfl⟩ | ⟨hsame, _⟩
  · exact horder.transition hop
  · exact horder.copyToSlot global.store
  · exact horder.congr hsame.values hsame.valueAllocPos hsame.frames

end Slots

theorem givesUp_of_resets {op : GlobalOp} {cont : ResetCont}
    (hop : op.resets = some (id, cont)) : op.givesUp = some id := by
  cases op with
  | setWeak => cases hop
  | _ => simp only [GlobalOp.givesUp, hop, Option.map_some]

theorem overReleased_eq {op : GlobalOp} (hop : op.givesUp = some id)
    (hglobal : world.global id = some global) :
    world.overReleased (.global op) =
      if global.isStrong && global.released then global.store.refs else 0 := by
  simp only [overReleased, hop, Option.bind_some, hglobal]

/-- The equation of every step that is not one of the handle layer or the engine. -/
theorem spare_transition (horder : world.isolate.InOrder) (hnext : Transition world action next)
    (hother : ∀ op, action ≠ .isolate op) :
    next.spare + world.overReleased action = world.spare + world.leaked action := by
  have hplain : next.spare = world.spare → world.overReleased action = 0 →
      world.leaked action = 0 →
        next.spare + world.overReleased action = world.spare + world.leaked action := by
    intro hspare hover hleaked
    rw [hspare, hover, hleaked]
  cases hnext with
  | construct => exact hplain spare_construct_empty rfl rfl
  | constructFrom handle value =>
      refine hplain ?_ rfl rfl
      have hconstruct : ((world.incRef value).construct
          (.strong world.globals.length value)).spare + value.refs = _ := spare_construct _
      rw [spare_incRef] at hconstruct
      exact add_right_cancel hconstruct
  | setWeak id global callback parameter hglobal hstrong =>
      have hover : world.overReleased (.global (.setWeak id callback parameter)) =
          if global.isStrong && global.released then global.store.refs else 0 :=
        overReleased_eq rfl hglobal
      have howed := entryRefs_add_released hstrong
      rw [← hover] at howed
      have hset := spare_setGlobal (some (global.weakened callback parameter))
        (lt_length_of_global hglobal)
      rw [entryRefs_weakened, add_zero, hglobal] at hset
      rw [show world.leaked (.global (.setWeak id callback parameter)) = 0 from rfl, add_zero,
        ← add_right_cancel_iff (a := entryRefs (some global)), add_assoc,
        add_comm (world.overReleased _), howed, spare_decRef, spare_setUserData, hset]
  | setWeakIdle id global callback parameter hglobal hstrong =>
      have hover : world.overReleased (.global (.setWeak id callback parameter)) =
          if global.isStrong && global.released then global.store.refs else 0 :=
        overReleased_eq rfl hglobal
      rw [hstrong] at hover
      exact hplain rfl hover rfl
  | get id global => exact hplain (spare_clone horder global.store) rfl rfl
  | moveConstructEmpty source other hglobal hval =>
      refine hplain ?_ rfl rfl
      have hsource : (world.construct .empty).global source = some other :=
        (global_construct_of_lt (lt_length_of_global hglobal)).trans hglobal
      have hmove := spare_setGlobal (some other.movedFrom) (lt_length_of_global hsource)
      have hnone : entryRefs (some other) = 0 :=
        entryRefs_of_not_strong (by simp [Global.isStrong, hval])
      rw [hsource, entryRefs_movedFrom, hnone, add_zero, add_zero] at hmove
      exact hmove.trans spare_construct_empty
  | moveConstruct source other hglobal hval =>
      refine hplain ?_ rfl rfl
      have hsource : (world.construct (.takeOver world.globals.length other other.store)).global
          source = some other :=
        (global_construct_of_lt (lt_length_of_global hglobal)).trans hglobal
      have hmove := spare_setGlobal (some other.movedFrom) (lt_length_of_global hsource)
      have htaken : entryRefs (some (.takeOver world.globals.length other other.store)) =
          entryRefs (some other) := entryRefs_takeOver _ (by simp [hval])
      rw [hsource, entryRefs_movedFrom, add_zero, ← htaken, spare_construct] at hmove
      exact hmove
  | moveAssignSelf target =>
      refine hplain rfl ?_ rfl
      simp [overReleased, GlobalOp.givesUp, GlobalOp.resets]
  | suspend op id cont global hop hglobal hstrong hlast =>
      have howed := entryRefs_add_released hstrong
      rw [← overReleased_eq (givesUp_of_resets hop) hglobal] at howed
      have hdec : (world.decRef global.store).global id = some global := hglobal
      rw [spare_suspend cont hdec, add_assoc, howed, spare_decRef]
      exact (add_zero _).symm
  | release op id cont global next hop hglobal hlast hproceeds =>
      have hgiven := spare_giveUp hglobal
      rw [overReleased_eq (givesUp_of_resets hop) hglobal, hproceeds.spare, global_giveUp, hgiven]
      exact (add_zero _).symm
  | resume id cont rest next hresets hproceeds =>
      have hleaked : world.leaked .resume = entryRefs (world.global id) := by
        simp only [leaked, hresets]
      rw [hproceeds.spare, hleaked]
      exact add_zero _
  | newInstance ptr internalFieldCount =>
      have hheld : (world.withInstance ptr internalFieldCount).isolate.held = world.isolate.held :=
        Isolate.held_of_others (Runtime.produce_refCount _) rfl
      refine hplain ?_ rfl rfl
      simp only [spare, hheld]
      rfl
  | isolate op => exact absurd rfl (hother op)

/-- The handle layer and the engine leave the references of the objects alone. -/
theorem spare_nonneg_isolate {op : Action} (horder : world.isolate.InOrder)
    (hspare : 0 ≤ world.spare) (hnext : Transition world (.isolate op) next) : 0 ≤ next.spare := by
  cases hnext with
  | isolate _ isolate hstep =>
      have hslack := horder.slack_le (Isolate.transition_of_step hstep)
      rw [spare, sub_nonneg] at hspare ⊢
      exact hspare.trans hslack

/-- A reference that was given up had been one. -/
def ReleasedRef (_ : Nat) (global : Global) : Prop :=
  global.released = true → global.store.hasRefCount = true

theorem releasedRef_rules (rt : Runtime) : EntryRules ReleasedRef rt where
  empty _ hreleased := by cases hreleased
  strong _ _ _ hreleased := by cases hreleased
  released _ _ hcount _ _ := hcount
  cleared _ _ _ hreleased := by cases hreleased
  weakened _ _ _ _ _ hholds := hholds
  takeOver _ _ _ _ hholds := hholds
  movedFrom _ _ hholds := hholds

variable (world) in
/-- The invariant of all runs. -/
structure WellFormed : Prop extends Pointing world where
  inOrder : world.isolate.InOrder
  releasedRef : world.Entrywise ReleasedRef

theorem wellFormed_new : World.new.WellFormed where
  toPointing := pointing_iff.mpr entrywise_new
  inOrder := Isolate.inOrder_new
  releasedRef := entrywise_new

theorem WellFormed.transition (hwell : world.WellFormed) (hnext : Transition world action next) :
    next.WellFormed where
  toPointing := hwell.toPointing.transition hnext
  inOrder := inOrder_transition hwell.inOrder hnext
  releasedRef := hwell.releasedRef.transition (releasedRef_rules _) hnext

/-- Step lemma of persistent handles. -/
theorem WellFormed.step (hwell : world.WellFormed) (hstep : world.step action = .ok next) :
    next.WellFormed :=
  hwell.transition (transition_of_step hwell.toPointing hstep)

/-- Run lemma of persistent handles. -/
theorem wellFormed_of_run {actions : List WorldAction}
    (hrun : World.step.run World.new actions = .ok world) : world.WellFormed :=
  World.step.run_invariant_of_step WellFormed
    (fun _ _ _ hwell hstep => hwell.step hstep) wellFormed_new hrun

variable (world) in
/-- The object an action moves from; assigning an object to itself moves nothing. -/
def movesFrom : WorldAction → Option Nat
  | .global (.moveConstruct source) => some source
  | action =>
      match world.continues action with
      | some (_, .moveAssign source) => some source
      | _ => none

/-- In a state, the engine counts one reference for each strong object besides those
of the handles and of the other owners, and a non-empty object points at its own
`store_`. An object whose `Reset()` is inside `DecRef` has given its reference up. -/
def OwnsOneEach (world : World) : Prop :=
  world.isolate.others + world.isolate.owned + strongRefs world.globals ≤
      world.isolate.runtime.refCount ∧
    ∀ id global, world.global id = some global → global.val = none ∨ global.val = some (.store id)

/-- The counts move by what handles and objects gain or give up. -/
def Balances (world next : World) : Prop :=
  next.isolate.runtime.refCount + (world.isolate.owned + strongRefs world.globals) =
    world.isolate.runtime.refCount + (next.isolate.owned + strongRefs next.globals)

/-- The operation does not read through a null pointer, ownership is as it should be
afterwards, the operations on objects take and give back what they have to, and an
object moved from is empty. -/
def KeepsOwnership (world : World) (action : WorldAction) (outcome : Except Fault World) : Prop :=
  outcome ≠ .error .nullDeref ∧
    ∀ next, outcome = .ok next → next.OwnsOneEach ∧
      (action.OnGlobals → world.Balances next) ∧
        ∀ source, world.movesFrom action = some source →
          ∀ global, next.global source = some global → global.val = none

variable (world) in
/-- An object is given an empty handle, or an empty one is asked for its value. -/
def ReadsNull (action : WorldAction) : Prop :=
  action = .global (.constructFrom none) ∨
    (∃ id global, action = .global (.get id) ∧ world.global id = some global ∧
      global.val = none) ∨
    ∃ id global, world.continues action = some (id, .resetTo none) ∧
      world.global id = some global

variable (world) in
/-- A non-empty object is moved from. -/
def MovesFull (action : WorldAction) : Prop :=
  (∃ source other, action = .global (.moveConstruct source) ∧ world.global source = some other ∧
    other.val.isSome = true) ∨
    ∃ target global source rhs, world.continues action = some (target, .moveAssign source) ∧
      world.global target = some global ∧ target ≠ source ∧ world.global source = some rhs ∧
        rhs.val.isSome = true

variable (world) in
/-- A weak callback comes back to an object whose `Reset()` is inside `DecRef`, and has
it give up its reference once more. -/
def Reenters (action : WorldAction) : Prop :=
  ∃ op id global, action = .global op ∧ op.givesUp = some id ∧ world.global id = some global ∧
    global.isStrong = true ∧ global.released = true

section Continuing

theorem continues_of_resets {op : GlobalOp} {cont : ResetCont}
    (hop : op.resets = some (id, cont)) (hglobal : world.global id = some global) :
    world.continues (.global op) =
      if global.isStrong && world.isolate.runtime.isLastReference global.store then none
      else some (id, cont) := by
  simp only [continues, hop, Option.bind_some, hglobal]

theorem continues_of_resets_none {op : GlobalOp} (hop : op.resets = none) :
    world.continues (.global op) = none := by
  simp only [continues, hop, Option.bind_none]

/-- Behind `DecRef`, only the value of an empty handle is read through a null pointer. -/
theorem proceed_nullDeref_iff {cont : ResetCont} (hpointing : world.Pointing)
    (hglobal : world.global id = some global) :
    world.proceed id cont = .error .nullDeref ↔ cont = .resetTo none := by
  simp only [proceed, hglobal]
  cases cont with
  | reset => simp
  | destroy => simp
  | resetTo other =>
      cases other with
      | none => simp [setTo]
      | some handle =>
          simp only [setTo, ResetCont.resetTo.injEq, reduceCtorEq, iff_false]
          split
          · simp
          · split <;> simp
  | moveAssign source =>
      simp only [reduceCtorEq, iff_false]
      cases hrhs : (world.setGlobal id (some global.cleared)).global source with
      | none => simp [World.assignFrom, hrhs]
      | some rhs => simp [(hpointing.cleared id global).assignFrom hrhs]

theorem reset_nullDeref_iff {op : GlobalOp} {cont : ResetCont} (hpointing : world.Pointing)
    (hop : op.resets = some (id, cont)) (hglobal : world.global id = some global) :
    world.reset id global cont = .error .nullDeref ↔
      world.continues (.global op) = some (id, .resetTo none) := by
  have hgiven : (world.giveUp global).Pointing := hpointing.congr giveUp_globals
  rw [hpointing.reset_cases hglobal, continues_of_resets hop hglobal]
  split
  · simp
  · rw [proceed_nullDeref_iff hgiven ((global_giveUp global).trans hglobal)]
    simp

theorem get_nullDeref_iff (hpointing : world.Pointing) (hglobal : world.global id = some global) :
    (world.get global).map Prod.snd = .error .nullDeref ↔ global.val = none := by
  cases hval : global.val with
  | none => simp [World.get, hval, Except.map]
  | some place =>
      obtain ⟨_, hvalue⟩ := hpointing.valueOf hglobal (by simp [hval])
      simp only [World.get, hvalue, reduceCtorEq, iff_false]
      split <;> simp [Except.map]

/-- An operation that calls `Reset()` does so on an object there is, unless a source to
assign from is missing. -/
theorem globalStep_of_resets (world : World) {op : GlobalOp} {cont : ResetCont}
    (hop : op.resets = some (id, cont)) :
    world.globalStep op = world.withGlobal id (fun global => world.reset id global cont) ∨
      world.globalStep op = .error .misuse ∧
        ∃ source, cont = .moveAssign source ∧ world.global source = none := by
  cases op with
  | reset id =>
      cases hop
      exact Or.inl rfl
  | resetTo id other =>
      cases hop
      exact Or.inl rfl
  | destroy id =>
      cases hop
      exact Or.inl rfl
  | moveAssign target source =>
      simp only [GlobalOp.resets] at hop
      split at hop
      · cases hop
      next hne =>
        cases hop
        simp only [globalStep, if_neg hne]
        cases hsource : world.global source with
        | none =>
            refine Or.inr ⟨?_, source, rfl, hsource⟩
            simp only [withGlobal, hsource]
            split <;> rfl
        | some rhs =>
            left
            simp only [withGlobal, hsource]
  | _ => cases hop

end Continuing

theorem fault_of_proceed {cont : ResetCont} {fault : Fault}
    (hstep : world.proceed id cont = .error fault) : fault = .misuse ∨ fault = .nullDeref := by
  simp only [proceed, setTo, assignFrom] at hstep
  repeat' split at hstep
  all_goals simp_all

theorem fault_of_reset {cont : ResetCont} {fault : Fault}
    (hstep : world.reset id global cont = .error fault) :
    fault = .misuse ∨ fault = .nullDeref := by
  unfold reset at hstep
  split at hstep
  · split at hstep
    next found hvalue =>
      cases hstep
      unfold strongValue at hvalue
      split at hvalue
      · exact Or.inr (Except.error.inj hvalue).symm
      · split at hvalue
        · cases hvalue
        · exact Or.inr (Except.error.inj hvalue).symm
    next value hvalue =>
      split at hstep
      · cases hstep
      · exact fault_of_proceed hstep
  · exact fault_of_proceed hstep

/-- An operation that gives a reference up fails for want of what it was given only. -/
theorem fault_of_givesUp {op : GlobalOp} {fault : Fault} (hop : op.givesUp = some id)
    (hstep : world.globalStep op = .error fault) : fault = .misuse ∨ fault = .nullDeref := by
  cases hresets : op.resets with
  | some target =>
      rcases globalStep_of_resets world hresets with heq | ⟨heq, _⟩
      · rw [heq, withGlobal] at hstep
        split at hstep
        · exact Or.inl (Except.error.inj hstep).symm
        · exact fault_of_reset hstep
      · rw [heq] at hstep
        exact Or.inl (Except.error.inj hstep).symm
  | none =>
      cases op with
      | setWeak id callback parameter =>
          simp only [globalStep, withGlobal, setWeak, strongValue] at hstep
          repeat' split at hstep
          all_goals simp_all [Except.map]
      | _ => simp [GlobalOp.givesUp, hresets] at hop

theorem resets_nullDeref_iff {op : GlobalOp} {cont : ResetCont} (hpointing : world.Pointing)
    (hop : op.resets = some (id, cont)) :
    world.globalStep op = .error .nullDeref ↔
      ∃ target global, world.continues (.global op) = some (target, .resetTo none) ∧
        world.global target = some global := by
  rcases globalStep_of_resets world hop with hstep | ⟨hstep, source, rfl, hsource⟩
  · rw [hstep, withGlobal]
    cases hglobal : world.global id with
    | none =>
        simp only [Except.error.injEq, reduceCtorEq, false_iff]
        rintro ⟨target, global, hcontinues, htarget⟩
        simp [continues, hop, hglobal] at hcontinues
    | some global =>
        simp only [reset_nullDeref_iff hpointing hop hglobal]
        constructor
        · intro hcontinues
          exact ⟨id, global, hcontinues, hglobal⟩
        · rintro ⟨target, found, hcontinues, htarget⟩
          have hsame := hcontinues
          rw [continues_of_resets hop hglobal] at hsame
          split at hsame
          · cases hsame
          · cases hsame
            exact hcontinues
  · simp only [hstep, Except.error.injEq, reduceCtorEq, false_iff]
    rintro ⟨target, global, hcontinues, htarget⟩
    simp only [continues, hop, Option.bind_some, Option.bind_eq_some_iff] at hcontinues
    obtain ⟨found, _, hcontinues⟩ := hcontinues
    split at hcontinues <;> cases hcontinues

theorem globalStep_nullDeref_iff {op : GlobalOp} (hpointing : world.Pointing) :
    world.globalStep op = .error .nullDeref ↔ world.ReadsNull (.global op) := by
  cases hop : op.resets with
  | some target =>
      rw [resets_nullDeref_iff hpointing hop]
      simp only [ReadsNull, WorldAction.global.injEq]
      constructor
      · rintro ⟨target, global, hreads⟩
        exact Or.inr (Or.inr ⟨target, global, hreads⟩)
      · rintro (rfl | ⟨id, global, rfl, _⟩ | ⟨target, global, hreads⟩)
        · cases hop
        · cases hop
        · exact ⟨target, global, hreads⟩
  | none =>
      simp only [ReadsNull, continues_of_resets_none hop, WorldAction.global.injEq, reduceCtorEq,
        false_and, exists_false, or_false]
      cases op with
      | construct => simp [globalStep]
      | constructFrom other =>
          rw [globalStep, constructFrom_eq]
          cases other with
          | none => simp [setTo]
          | some handle =>
              simp only [setTo, GlobalOp.constructFrom.injEq, reduceCtorEq, false_and,
                exists_false, or_self, iff_false]
              split
              · simp
              · split <;> simp
      | setWeak id callback parameter =>
          simp only [globalStep, withGlobal, reduceCtorEq, false_and, exists_false, or_self,
            iff_false]
          cases hglobal : world.global id with
          | none => simp
          | some global =>
              cases hstrong : global.isStrong with
              | true => simp [hpointing.setWeak hglobal hstrong]
              | false => simp [World.setWeak, hstrong]
      | get id =>
          simp only [globalStep, withGlobal, reduceCtorEq, false_or, GlobalOp.get.injEq]
          cases hglobal : world.global id with
          | none =>
              simp only [Except.error.injEq, reduceCtorEq, false_iff]
              rintro ⟨other, global, rfl, hother, _⟩
              rw [hglobal] at hother
              cases hother
          | some global =>
              simp only [get_nullDeref_iff hpointing hglobal]
              constructor
              · intro hval
                exact ⟨id, global, rfl, hglobal, hval⟩
              · rintro ⟨other, found, rfl, hother, hval⟩
                rw [hglobal] at hother
                cases hother
                exact hval
      | moveConstruct source =>
          simp only [globalStep, withGlobal, reduceCtorEq, false_and, exists_false, or_self,
            iff_false]
          cases hglobal : world.global source with
          | none => simp
          | some other => simp [hpointing.moveConstruct hglobal]
      | moveAssign target source =>
          obtain rfl : target = source := by
            by_contra hne
            simp [GlobalOp.resets, hne] at hop
          simp only [globalStep, withGlobal, if_true, reduceCtorEq, false_and, exists_false,
            or_self, iff_false]
          cases world.global target <;> simp
      | _ => cases hop

/-- The reads through a null pointer are exactly those of the empty handle and the
empty object. -/
theorem step_nullDeref_iff (hpointing : world.Pointing) :
    world.step action = .error .nullDeref ↔ world.ReadsNull action := by
  cases action with
  | newInstance ptr internalFieldCount =>
      have hreads : ¬ world.ReadsNull (.newInstance ptr internalFieldCount) := by
        simp [ReadsNull, continues]
      simp only [hreads, iff_false, World.step, World.newInstance]
      split <;> simp
  | isolate action =>
      have hreads : ¬ world.ReadsNull (.isolate action) := by simp [ReadsNull, continues]
      simp only [hreads, iff_false, World.step]
      cases hstep : world.isolate.step action with
      | ok isolate => simp [Except.map]
      | error fault =>
          intro hfault
          simp only [Except.map, Except.error.injEq] at hfault
          subst fault
          rcases Isolate.fault_of_step hstep with hcase | hcase <;> cases hcase
  | resume =>
      simp only [ReadsNull, continues, reduceCtorEq, false_and, exists_false, false_or, World.step,
        World.resume]
      cases hresets : world.resets with
      | nil => simp
      | cons top rest =>
          obtain ⟨id, cont⟩ := top
          have hrest : World.Pointing { world with resets := rest } := hpointing.congr rfl
          simp only [List.head?_cons, Option.some.injEq, Prod.mk.injEq]
          cases hglobal : world.global id with
          | none =>
              have hnone : World.global { world with resets := rest } id = none := hglobal
              simp only [proceed, hnone, Except.error.injEq, reduceCtorEq, false_iff]
              rintro ⟨other, global, ⟨rfl, _⟩, hother⟩
              rw [hglobal] at hother
              cases hother
          | some global =>
              rw [proceed_nullDeref_iff hrest hglobal]
              constructor
              · rintro rfl
                exact ⟨id, global, ⟨rfl, rfl⟩, hglobal⟩
              · rintro ⟨_, _, ⟨_, rfl⟩, _⟩
                rfl
  | global op => exact globalStep_nullDeref_iff hpointing

section Moving

/-- An assignment that goes through leaves a full source as it was, or found none. -/
theorem Proceeds.moved {source : Nat} (hproceeds : Proceeds world id (.moveAssign source) next) :
    (∃ rhs, id ≠ source ∧ world.global source = some rhs ∧ rhs.val.isSome = true) ∨
      ∃ rhs, next.global source = some rhs ∧ rhs.val = none := by
  cases hproceeds with
  | moveAssignEmpty global source rhs hglobal hrhs hval => exact Or.inr ⟨rhs, hrhs, hval⟩
  | moveAssign global source rhs hne hglobal hrhs hval =>
      exact Or.inl ⟨rhs, hne, hrhs, by simp [hval]⟩

/-- Only a move from a full object leaves its source full. -/
theorem moved_empty {source : Nat} (hnext : Transition world action next)
    (hfull : ¬ world.MovesFull action) (hmoves : world.movesFrom action = some source)
    (hglobal : next.global source = some global) : global.val = none := by
  have hassign : ∀ {between : World} {target : Nat} {cont : ResetCont},
      between.globals = world.globals → world.continues action = some (target, cont) →
      world.movesFrom action = (match world.continues action with
        | some (_, .moveAssign source) => some source
        | _ => none) →
      Proceeds between target cont next → global.val = none := by
    intro between target cont hglobals hcontinues hmoved hproceeds
    rw [hmoved, hcontinues] at hmoves
    cases cont with
    | moveAssign from_ =>
        cases hmoves
        have hsame : ∀ other, between.global other = world.global other := fun other => by
          rw [World.global, hglobals, World.global]
        obtain ⟨was, hwas⟩ := hproceeds.exists_global
        rcases hproceeds.moved with ⟨rhs, hne, hrhs, hsome⟩ | ⟨rhs, hrhs, hnone⟩
        · rw [hsame] at hwas hrhs
          exact absurd (Or.inr ⟨target, was, source, rhs, hcontinues, hwas, hne, hrhs, hsome⟩) hfull
        · rw [hglobal] at hrhs
          cases hrhs
          exact hnone
    | _ => cases hmoves
  cases hnext with
  | moveConstructEmpty source other hother hval =>
      cases hmoves
      have hlt : source < (world.construct .empty).globals.length :=
        lt_length_of_global ((global_construct_of_lt (lt_length_of_global hother)).trans hother)
      rw [global_setGlobal_self hlt, Option.some.injEq] at hglobal
      rw [← hglobal]
      exact hval
  | moveConstruct source other hother hval =>
      exact absurd (Or.inl ⟨source, other, rfl, hother, by simp [hval]⟩) hfull
  | suspend op id cont was hop hwas hstrong hlast =>
      have hnone : world.continues (.global op) = none := by
        rw [continues_of_resets hop hwas, hstrong, hlast]
        rfl
      cases op with
      | moveConstruct => cases hop
      | _ => simp only [movesFrom, hnone, reduceCtorEq] at hmoves
  | release op id cont was next hop hwas hlast hproceeds =>
      have hcontinues : world.continues (.global op) = some (id, cont) := by
        rw [continues_of_resets hop hwas, hlast]
        rfl
      refine hassign giveUp_globals hcontinues ?_ hproceeds
      cases op with
      | moveConstruct => cases hop
      | _ => rfl
  | resume id cont rest next hresets hproceeds =>
      have hcontinues : world.continues .resume = some (id, cont) := by
        simp only [continues, hresets, List.head?_cons]
      have hglobals : World.globals { world with resets := rest } = world.globals := rfl
      exact hassign hglobals hcontinues rfl hproceeds
  | moveAssignSelf target =>
      simp only [movesFrom, continues, GlobalOp.resets, if_true, Option.bind_none,
        reduceCtorEq] at hmoves
  | _ => cases hmoves

/-- A move from a full object goes through and does not empty it. -/
theorem proceed_moveAssign_full {source : Nat} {rhs : Global} (hpointing : world.Pointing)
    (hglobal : world.global id = some global) (hne : id ≠ source)
    (hrhs : world.global source = some rhs) (hval : rhs.val.isSome = true) :
    ∃ next, world.proceed id (.moveAssign source) = .ok next ∧
      next.global source = some rhs.movedFrom := by
  have hafter : (world.setGlobal id (some global.cleared)).global source = some rhs :=
    (global_setGlobal_of_ne hne).trans hrhs
  refine ⟨((world.setGlobal id (some global.cleared)).setGlobal id
    (some (.takeOver id rhs rhs.store))).setGlobal source (some rhs.movedFrom), ?_, ?_⟩
  · simp only [proceed, hglobal, (hpointing.cleared id global).assignFrom hafter, hval, if_true]
  · rw [setGlobal_setGlobal]
    exact global_setGlobal_self (lt_length_of_global ((global_setGlobal_of_ne hne).trans hrhs))

theorem moved_full (hpointing : world.Pointing) (hfull : world.MovesFull action) :
    ∃ next source global, world.step action = .ok next ∧ world.movesFrom action = some source ∧
      next.global source = some global ∧ global.val.isSome = true := by
  rcases hfull with ⟨source, other, rfl, hother, hval⟩ |
    ⟨target, global, source, rhs, hcontinues, hglobal, hne, hrhs, hval⟩
  · refine ⟨(world.construct (.takeOver world.globals.length other other.store)).setGlobal source
      (some other.movedFrom), source, other.movedFrom, ?_, rfl, ?_, hval⟩
    · simp only [World.step, globalStep, withGlobal, hother, hpointing.moveConstruct hother, hval,
        if_true]
    · exact global_setGlobal_self (lt_length_of_global
        ((global_construct_of_lt (lt_length_of_global hother)).trans hother))
  · cases action with
    | global op =>
        simp only [continues, Option.bind_eq_some_iff] at hcontinues
        obtain ⟨⟨id, cont⟩, hop, found, hfound, hlast⟩ := hcontinues
        split at hlast
        · cases hlast
        next hkept =>
          cases hlast
          have hgiven : (world.giveUp found).Pointing := hpointing.congr giveUp_globals
          obtain ⟨next, hproceed, hsource⟩ := proceed_moveAssign_full hgiven
            ((global_giveUp found).trans hfound) hne ((global_giveUp found).trans hrhs) hval
          refine ⟨next, source, rhs.movedFrom, ?_, ?_, hsource, hval⟩
          · rcases globalStep_of_resets world hop with hstep | ⟨_, other, heq, hnone⟩
            · rw [World.step, hstep, withGlobal, hfound]
              simp only [hpointing.reset_cases hfound, if_neg hkept, hproceed]
            · cases heq
              rw [hrhs] at hnone
              cases hnone
          · have hcontinues : world.continues (.global op) = some (target, .moveAssign source) := by
              rw [continues_of_resets hop hfound, if_neg hkept]
            cases op with
            | moveConstruct => cases hop
            | _ => simp only [movesFrom, hcontinues]
    | resume =>
        simp only [continues, List.head?_eq_some_iff] at hcontinues
        obtain ⟨rest, hresets⟩ := hcontinues
        have hrest : World.Pointing { world with resets := rest } := hpointing.congr rfl
        obtain ⟨next, hproceed, hsource⟩ := proceed_moveAssign_full hrest hglobal hne hrhs hval
        refine ⟨next, source, rhs.movedFrom, ?_, ?_, hsource, hval⟩
        · simp only [World.step, World.resume, hresets]
          exact hproceed
        · simp only [movesFrom, continues, hresets, List.head?_cons]
    | _ => cases hcontinues

end Moving

section InProgress

variable (world) in
/-- Every `Reset()` inside `DecRef` is at an object of its own, which has given up its
reference and nothing else yet. -/
structure InProgress : Prop where
  nodup : (world.resets.map Prod.fst).Nodup
  released : ∀ id ∈ world.resets.map Prod.fst, ∃ global, world.global id = some global ∧
    global.isStrong = true ∧ global.released = true

theorem inProgress_new : World.new.InProgress where
  nodup := List.nodup_nil
  released := by simp [World.new]

/-- Frame rule: what leaves the objects in question alone. -/
theorem InProgress.frame (hprogress : world.InProgress)
    (hresets : (next.resets.map Prod.fst).Sublist (world.resets.map Prod.fst))
    (hglobals : ∀ id ∈ next.resets.map Prod.fst, next.global id = world.global id) :
    next.InProgress where
  nodup := hprogress.nodup.sublist hresets
  released id hid := by
    rw [hglobals id hid]
    exact hprogress.released id (hresets.subset hid)

/-- An object that is at rest or not strong is in no `Reset()`. -/
theorem InProgress.not_mem (hprogress : world.InProgress)
    (hglobal : world.global id = some global)
    (hrest : (global.isStrong && global.released) = false) :
    id ∉ world.resets.map Prod.fst := by
  intro hid
  obtain ⟨found, hfound, hstrong, hreleased⟩ := hprogress.released id hid
  rw [hglobal] at hfound
  cases hfound
  rw [hstrong, hreleased] at hrest
  cases hrest

theorem not_reenters {op : GlobalOp} (hop : op.givesUp = some id)
    (hglobal : world.global id = some global) (hkeeps : ¬ world.Reenters (.global op)) :
    (global.isStrong && global.released) = false := by
  cases hstrong : global.isStrong with
  | false => rfl
  | true =>
      cases hreleased : global.released with
      | false => rfl
      | true => exact absurd ⟨op, id, global, rfl, hop, hglobal, hstrong, hreleased⟩ hkeeps

theorem Proceeds.resets {cont : ResetCont} (hproceeds : Proceeds world id cont next) :
    next.resets = world.resets := by
  cases hproceeds <;> rfl

/-- Apart from a move out of a full object, only the object itself is written to. -/
theorem Proceeds.frame {cont : ResetCont} (hproceeds : Proceeds world id cont next)
    (hfull : ∀ source rhs, cont = .moveAssign source → id ≠ source →
      world.global source = some rhs → rhs.val.isSome = false)
    {other : Nat} (hne : id ≠ other) : next.global other = world.global other := by
  cases hproceeds with
  | moveAssign global source rhs hsource hglobal hrhs hval =>
      have hnone := hfull source rhs rfl hsource hrhs
      rw [hval] at hnone
      cases hnone
  | _ => exact global_setGlobal_of_ne hne

/-- A step that meets the condition leaves the calls of `Reset()` in order. -/
theorem InProgress.transition (hprogress : world.InProgress)
    (hfull : ¬ world.MovesFull action) (hkeeps : ¬ world.Reenters action)
    (hnext : Transition world action next) : next.InProgress := by
  have hexists : ∀ {id}, id ∈ world.resets.map Prod.fst → id < world.globals.length := by
    intro id hid
    obtain ⟨global, hglobal, _⟩ := hprogress.released id hid
    exact lt_length_of_global hglobal
  have hsource : ∀ {target : Nat} {cont : ResetCont} {global : Global},
      world.continues action = some (target, cont) → world.global target = some global →
      ∀ source rhs, cont = .moveAssign source → target ≠ source →
        world.global source = some rhs → rhs.val.isSome = false := by
    intro target cont global hcontinues hglobal source rhs hcont hne hrhs
    cases hval : rhs.val.isSome with
    | false => rfl
    | true => exact absurd (Or.inr ⟨target, global, source, rhs, hcont ▸ hcontinues, hglobal, hne,
        hrhs, hval⟩) hfull
  cases hnext with
  | construct =>
      exact hprogress.frame (List.Sublist.refl _) fun id hid => global_construct_of_lt (hexists hid)
  | constructFrom handle value =>
      exact hprogress.frame (List.Sublist.refl _) fun id hid =>
        global_construct_of_lt (show id < (world.incRef value).globals.length from hexists hid)
  | setWeak id global callback parameter hglobal =>
      have hrest := hprogress.not_mem hglobal (not_reenters rfl hglobal hkeeps)
      refine hprogress.frame ?_ fun other hother => ?_
      · rw [World.decRef, setUserData_resets]
        exact List.Sublist.refl _
      · have hmem : other ∈ world.resets.map Prod.fst := by
          rwa [World.decRef, setUserData_resets] at hother
        have hne : id ≠ other := fun heq => hrest (heq ▸ hmem)
        rw [World.decRef, World.global, setUserData_globals]
        exact global_setGlobal_of_ne hne
  | moveConstructEmpty source other hother hval =>
      have hstrong : other.isStrong = false := by simp [Global.isStrong, hval]
      have hrest := hprogress.not_mem hother (by rw [hstrong, Bool.false_and])
      refine hprogress.frame (List.Sublist.refl _) fun id hid => ?_
      have hne : source ≠ id := fun heq => hrest (heq ▸ hid)
      exact (global_setGlobal_of_ne hne).trans (global_construct_of_lt (hexists hid))
  | moveConstruct source other hother hval =>
      exact absurd (Or.inl ⟨source, other, rfl, hother, by simp [hval]⟩) hfull
  | suspend op id cont global hop hglobal hstrong hlast =>
      have hrest := hprogress.not_mem hglobal
        (not_reenters (givesUp_of_resets hop) hglobal hkeeps)
      have hself : ((world.decRef global.store).suspend id global cont).global id =
          some { global with released := true } :=
        global_setGlobal_self (lt_length_of_global
          (show (world.decRef global.store).global id = some global from hglobal))
      refine ⟨List.nodup_cons.mpr ⟨hrest, hprogress.nodup⟩, fun other hother => ?_⟩
      rcases List.mem_cons.mp hother with rfl | hmem
      · exact ⟨_, hself, hstrong, rfl⟩
      · have hne : id ≠ other := fun heq => hrest (heq ▸ hmem)
        have hsame : ((world.decRef global.store).suspend id global cont).global other =
            world.global other := global_setGlobal_of_ne hne
        rw [hsame]
        exact hprogress.released other hmem
  | release op id cont global next hop hglobal hlast hproceeds =>
      have hrest := hprogress.not_mem hglobal
        (not_reenters (givesUp_of_resets hop) hglobal hkeeps)
      have hcontinues : world.continues (.global op) = some (id, cont) := by
        rw [continues_of_resets hop hglobal, hlast]
        rfl
      have hsame : next.resets = world.resets := hproceeds.resets.trans giveUp_resets
      refine hprogress.frame (hsame ▸ List.Sublist.refl _) fun other hother => ?_
      have hne : id ≠ other := fun heq => hrest (heq ▸ hsame ▸ hother)
      rw [hproceeds.frame ?_ hne, global_giveUp]
      intro source rhs hcont hne hrhs
      exact hsource hcontinues hglobal source rhs hcont hne ((global_giveUp global).symm.trans hrhs)
  | resume id cont rest next hresets hproceeds =>
      have hcontinues : world.continues .resume = some (id, cont) := by
        simp only [continues, hresets, List.head?_cons]
      have hids : world.resets.map Prod.fst = id :: rest.map Prod.fst := by
        rw [hresets, List.map_cons]
      have hsame : next.resets = rest := hproceeds.resets
      obtain ⟨global, hglobal⟩ := hproceeds.exists_global
      refine hprogress.frame ?_ fun other hother => ?_
      · rw [hsame, hids]
        exact List.sublist_cons_self _ _
      · have hnodup := hprogress.nodup
        rw [hids, List.nodup_cons] at hnodup
        rw [hsame] at hother
        have hne : id ≠ other := fun heq => hnodup.1 (heq ▸ hother)
        exact hproceeds.frame (hsource hcontinues hglobal) hne
  | _ => exact hprogress.frame (List.Sublist.refl _) fun _ _ => rfl

/-- Under the condition no reference is given up twice. -/
theorem overReleased_eq_zero (hkeeps : ¬ world.Reenters action) :
    world.overReleased action = 0 := by
  cases action with
  | global op =>
      simp only [overReleased]
      cases hop : op.givesUp with
      | none => rfl
      | some id =>
          cases hglobal : world.global id with
          | none => simp only [Option.bind_some, hglobal]
          | some global =>
              simp only [Option.bind_some, hglobal, not_reenters hop hglobal hkeeps,
                Bool.false_eq_true, if_false]
  | _ => rfl

/-- What a `Reset()` goes on to clear owns nothing any more. -/
theorem InProgress.leaked (hprogress : world.InProgress) : world.leaked action = 0 := by
  cases action with
  | resume =>
      simp only [World.leaked]
      split
      next id cont rest hresets =>
        obtain ⟨global, hglobal, hstrong, hreleased⟩ := hprogress.released id (by simp [hresets])
        rw [hglobal]
        exact entryRefs_of_not_owns (by simp [Global.owns, hreleased])
      next => rfl
  | _ => rfl

end InProgress

/-- Operations on objects leave the references of the other owners alone. -/
theorem others_transition (hnext : Transition world action next) (hglobals : action.OnGlobals) :
    next.isolate.others = world.isolate.others := by
  have hproceed : ∀ {between next : World} {id : Nat} {cont : ResetCont},
      Proceeds between id cont next → next.isolate.others = between.isolate.others := by
    intro between next id cont hproceeds
    cases hproceeds <;> rfl
  cases hnext with
  | setWeak =>
      simp only [World.decRef, World.setUserData]
      split <;> rfl
  | release op id cont global next hop hglobal hlast hproceeds =>
      rw [hproceed hproceeds, World.giveUp]
      split <;> rfl
  | resume id cont rest next hresets hproceeds =>
      have hothers := hproceed hproceeds
      exact hothers
  | newInstance => exact hglobals.elim
  | isolate => exact hglobals.elim
  | _ => rfl

/-- The counts move with handles and objects exactly if no reference changes sides. -/
theorem balances_iff (hothers : next.isolate.others = world.isolate.others) :
    world.Balances next ↔ next.spare = world.spare := by
  simp only [Balances, spare, Isolate.held, hothers]
  constructor
  · intro hbalance
    rw [sub_sub, sub_sub, sub_sub, sub_sub, sub_eq_sub_iff_add_eq_add]
    calc next.isolate.runtime.refCount + (world.isolate.others + (world.isolate.owned +
          strongRefs world.globals))
        = next.isolate.runtime.refCount + (world.isolate.owned + strongRefs world.globals) +
            world.isolate.others := by abel
      _ = _ := by rw [hbalance]; abel
  · intro hspare
    rw [sub_sub, sub_sub, sub_sub, sub_sub, sub_eq_sub_iff_add_eq_add] at hspare
    refine add_right_cancel (b := world.isolate.others) ?_
    calc next.isolate.runtime.refCount + (world.isolate.owned + strongRefs world.globals) +
          world.isolate.others
        = next.isolate.runtime.refCount + (world.isolate.others + (world.isolate.owned +
            strongRefs world.globals)) := by abel
      _ = _ := by rw [hspare]; abel

variable (world) in
/-- The invariant of the runs that meet the condition. -/
structure Owning : Prop extends WellFormed world, InProgress world where
  spare_nonneg : 0 ≤ world.spare

theorem owning_new : World.new.Owning where
  toWellFormed := wellFormed_new
  toInProgress := inProgress_new
  spare_nonneg := by
    have hheld : World.new.isolate.held = 0 := Isolate.held_new
    rw [spare, hheld]
    simp [World.new, Isolate.owned, Isolate.new, liveRefs, parkedRefs, strongRefs]

theorem Owning.ownsOneEach (howning : world.Owning) : world.OwnsOneEach := by
  refine ⟨?_, howning.ownStore⟩
  have hspare := howning.spare_nonneg
  rw [spare, Isolate.held, sub_sub, sub_sub, sub_nonneg, ← add_assoc] at hspare
  exact hspare

variable (world) in
/-- The condition of a step. -/
structure Careful (action : WorldAction) : Prop where
  readsNothing : ¬ world.ReadsNull action
  movesEmpty : ¬ world.MovesFull action
  releasesOnce : ¬ world.Reenters action

theorem Owning.spare_transition (howning : world.Owning) (hkeeps : ¬ world.Reenters action)
    (hnext : Transition world action next) (hother : ∀ op, action ≠ .isolate op) :
    next.spare = world.spare := by
  have hspare := World.spare_transition howning.inOrder hnext hother
  rw [overReleased_eq_zero hkeeps, howning.toInProgress.leaked, add_zero, add_zero] at hspare
  exact hspare

/-- Step lemma of ownership. -/
theorem Owning.transition (howning : world.Owning) (hcareful : world.Careful action)
    (hnext : Transition world action next) : next.Owning where
  toWellFormed := howning.toWellFormed.transition hnext
  toInProgress := howning.toInProgress.transition hcareful.movesEmpty hcareful.releasesOnce hnext
  spare_nonneg := by
    cases action with
    | isolate op => exact spare_nonneg_isolate howning.inOrder howning.spare_nonneg hnext
    | _ =>
        rw [howning.spare_transition hcareful.releasesOnce hnext (by simp)]
        exact howning.spare_nonneg

/-- A reference given up once more is missing in the counts. -/
theorem not_balances_of_reenters (hwell : world.WellFormed) (hreenters : world.Reenters action)
    (hnext : Transition world action next) : ¬ world.Balances next := by
  obtain ⟨op, id, global, rfl, hop, hglobal, hstrong, hreleased⟩ := hreenters
  rw [balances_iff (others_transition hnext trivial)]
  intro hsame
  have hspare := World.spare_transition hwell.inOrder hnext (by simp)
  rw [hsame, overReleased_eq hop hglobal, hstrong, hreleased, Bool.and_self, if_pos rfl,
    show world.leaked (.global op) = 0 from rfl, add_right_inj] at hspare
  have hcount := hwell.releasedRef id global hglobal hreleased
  cases hstore : global.store with
  | ref kind ptr =>
      have hone := congrFun hspare ptr
      rw [hstore, JSValue.refs_ref_self] at hone
      cases hone
  | _ =>
      rw [hstore] at hcount
      cases hcount

/-- In a run on objects and handles that exist, ownership is kept, no null pointer is read
and objects moved from are empty, exactly if no full object is moved from, no object is
given an empty handle, no empty one is asked for its value, and no weak callback comes
back to the object whose `Reset()` has set it off. -/
theorem keepsOwnership_iff_careful (actions : List WorldAction)
    (hcontract : World.step.Always (fun _ _ outcome => outcome ≠ .error .misuse)
      World.new actions) :
    World.step.Always KeepsOwnership World.new actions ↔
      World.step.Always (fun world action _ => world.Careful action) World.new actions := by
  refine World.step.always_iff_within Owning ?_ ?_ owning_new hcontract
  · intro world action howning hmisuse
    constructor
    · intro hkeeps
      have hreads : ¬ world.ReadsNull action := fun hreads =>
        hkeeps.1 ((step_nullDeref_iff howning.toPointing).mpr hreads)
      refine ⟨hreads, fun hfull => ?_, fun hreenters => ?_⟩
      · obtain ⟨next, source, global, hstep, hmoves, hglobal, hval⟩ :=
          moved_full howning.toPointing hfull
        rw [(hkeeps.2 next hstep).2.2 source hmoves global hglobal] at hval
        cases hval
      · cases hstep : world.step action with
        | ok next =>
            have hnext := transition_of_step howning.toPointing hstep
            refine not_balances_of_reenters howning.toWellFormed hreenters hnext ?_
            obtain ⟨op, _, _, rfl, _⟩ := hreenters
            exact (hkeeps.2 next hstep).2.1 trivial
        | error fault =>
            obtain ⟨op, id, _, rfl, hop, _⟩ := hreenters
            rcases fault_of_givesUp hop hstep with rfl | rfl
            · exact hmisuse hstep
            · exact hkeeps.1 hstep
    · intro hcareful
      refine ⟨fun hnull => hcareful.readsNothing ((step_nullDeref_iff howning.toPointing).mp hnull),
        fun next hstep => ?_⟩
      have hnext := transition_of_step howning.toPointing hstep
      refine ⟨(howning.transition hcareful hnext).ownsOneEach, fun hglobals => ?_,
        fun source hmoves global hglobal => moved_empty hnext hcareful.movesEmpty hmoves hglobal⟩
      rw [balances_iff (others_transition hnext hglobals)]
      refine howning.spare_transition hcareful.releasesOnce hnext ?_
      rintro op rfl
      exact hglobals
  · intro world action next howning hcareful _ hstep
    exact howning.transition hcareful (transition_of_step howning.toPointing hstep)

/-- `Reset()` drops the last reference to an object with internal fields; a weak callback
moves from an empty object before the fields are cleared, and both are destroyed. -/
def callbackRun : List WorldAction :=
  [.newInstance 0 1, .global (.constructFrom (some (.outside (.ref .object 0)))),
    .isolate (.engine (.free (.ref .object 0))), .global (.reset 0), .global .construct,
    .global (.moveConstruct 1), .resume, .global (.destroy 0), .global (.destroy 1)]

theorem keepsOwnership_iff_careful_callback :
    ∃ final, World.step.run World.new callbackRun = .ok final ∧
      (World.step.Always KeepsOwnership World.new callbackRun ↔
        World.step.Always (fun world action _ => world.Careful action) World.new callbackRun) := by
  have hrun : World.step.run World.new callbackRun = .ok _ := rfl
  exact ⟨_, hrun, keepsOwnership_iff_careful callbackRun
    (World.step.always_ne_error_of_run .misuse hrun)⟩

/-- A value goes into an object, and from there into a second one. -/
def movedRun : List WorldAction :=
  Isolate.nested.map .isolate ++
    [.global (.constructFrom (some (.slot 0))), .global (.moveConstruct 0)]

/-- The object moved from keeps its `val_`. -/
theorem moved_from_not_empty :
    ¬ World.step.Always KeepsOwnership World.new movedRun := by
  intro hkeeps
  have hlast := World.step.always_iff_forall_reached.mp hkeeps
    (Isolate.nested.map .isolate ++ [.global (.constructFrom (some (.slot 0)))])
    (.global (.moveConstruct 0)) [] _ rfl rfl
  have hempty := (hlast.2 _ rfl).2.2 0 rfl _ rfl
  cases hempty

end World

end QuickjsBackend
