import QuickjsBackend.Foundation.Slots
import QuickjsBackend.Persistent.Global

/-! # What one operation on persistent handles can do

The pointers of all `Global` objects are as they should be in every reachable
state: `val_` is empty or points at the object's own `store_`, and a strong
object has its `isolate_`. Given that, an accepted step is one of the
transitions below.
-/

namespace QuickjsBackend

open Foundation

namespace World

variable (world : World)

structure Pointing : Prop where
  ownStore : ∀ id global, world.global id = some global →
    global.val = none ∨ global.val = some (.store id)
  isolate : ∀ id global, world.global id = some global → global.isStrong = true →
    global.isolate = true

/-- `Reset()` up to the fields it clears. -/
def giveUp (global : Global) : World :=
  if global.isStrong then world.decRef global.store else world

/-- The object that an action goes on to write to once `DecRef` has returned. -/
def continues : WorldAction → Option (Nat × ResetCont)
  | .global op =>
      op.resets.bind fun target =>
        (world.global target.1).bind fun global =>
          if global.isStrong && world.isolate.runtime.isLastReference global.store then none
          else some target
  | .resume => world.resets.head?
  | _ => none

/-- What `Reset()` and its caller do after `DecRef`. -/
inductive Proceeds (world : World) (id : Nat) : ResetCont → World → Prop
  | reset (global : Global) (hglobal : world.global id = some global) :
      Proceeds world id .reset (world.setGlobal id (some global.cleared))
  | resetTo (global : Global) (handle : Local) (value : JSValue)
      (hglobal : world.global id = some global)
      (hderef : world.isolate.deref handle = some value)
      (hlive : world.isolate.runtime.Live value) :
      Proceeds world id (.resetTo (some handle))
        ((world.incRef value).setGlobal id (some (.strong id value)))
  | moveAssignEmpty (global : Global) (source : Nat) (rhs : Global)
      (hglobal : world.global id = some global)
      (hrhs : (world.setGlobal id (some global.cleared)).global source = some rhs)
      (hval : rhs.val = none) :
      Proceeds world id (.moveAssign source) (world.setGlobal id (some global.cleared))
  | moveAssign (global : Global) (source : Nat) (rhs : Global) (hne : id ≠ source)
      (hglobal : world.global id = some global) (hrhs : world.global source = some rhs)
      (hval : rhs.val = some (.store source)) :
      Proceeds world id (.moveAssign source)
        ((world.setGlobal id (some (.takeOver id rhs rhs.store))).setGlobal source
          (some rhs.movedFrom))
  | destroy (global : Global) (hglobal : world.global id = some global) :
      Proceeds world id .destroy (world.setGlobal id none)

inductive Transition (world : World) : WorldAction → World → Prop
  | construct : Transition world (.global .construct) (world.construct .empty)
  | constructFrom (handle : Local) (value : JSValue)
      (hderef : world.isolate.deref handle = some value)
      (hlive : world.isolate.runtime.Live value) :
      Transition world (.global (.constructFrom (some handle)))
        ((world.incRef value).construct (.strong world.globals.length value))
  | setWeak (id : Nat) (global : Global) (callback parameter : Nat)
      (hglobal : world.global id = some global) (hstrong : global.isStrong = true) :
      Transition world (.global (.setWeak id callback parameter))
        (((world.setGlobal id (some (global.weakened callback parameter))).setUserData
          global.store callback parameter).decRef global.store)
  | setWeakIdle (id : Nat) (global : Global) (callback parameter : Nat)
      (hglobal : world.global id = some global) (hstrong : global.isStrong = false) :
      Transition world (.global (.setWeak id callback parameter)) world
  | get (id : Nat) (global : Global) (hglobal : world.global id = some global)
      (hval : global.val = some (.store id))
      (hallocated : world.isolate.runtime.Allocated global.store) :
      Transition world (.global (.get id)) (world.clone global.store)
  | moveConstructEmpty (source : Nat) (other : Global)
      (hglobal : world.global source = some other) (hval : other.val = none) :
      Transition world (.global (.moveConstruct source))
        ((world.construct .empty).setGlobal source (some other.movedFrom))
  | moveConstruct (source : Nat) (other : Global) (hglobal : world.global source = some other)
      (hval : other.val = some (.store source)) :
      Transition world (.global (.moveConstruct source))
        ((world.construct (.takeOver world.globals.length other other.store)).setGlobal source
          (some other.movedFrom))
  | moveAssignSelf (target : Nat) (global : Global)
      (hglobal : world.global target = some global) :
      Transition world (.global (.moveAssign target target)) world
  | suspend (op : GlobalOp) (id : Nat) (cont : ResetCont) (global : Global)
      (hop : op.resets = some (id, cont)) (hglobal : world.global id = some global)
      (hstrong : global.isStrong = true)
      (hlast : world.isolate.runtime.isLastReference global.store = true) :
      Transition world (.global op) ((world.decRef global.store).suspend id global cont)
  | release (op : GlobalOp) (id : Nat) (cont : ResetCont) (global : Global) (next : World)
      (hop : op.resets = some (id, cont)) (hglobal : world.global id = some global)
      (hlast : (global.isStrong && world.isolate.runtime.isLastReference global.store) = false)
      (hproceeds : Proceeds (world.giveUp global) id cont next) :
      Transition world (.global op) next
  | resume (id : Nat) (cont : ResetCont) (rest : List (Nat × ResetCont)) (next : World)
      (hresets : world.resets = (id, cont) :: rest)
      (hproceeds : Proceeds { world with resets := rest } id cont next) :
      Transition world .resume next
  | newInstance (ptr : Ptr) (internalFieldCount : Nat)
      (hunused : world.isolate.runtime.cell ptr = .unused) :
      Transition world (.newInstance ptr internalFieldCount)
        (world.withInstance ptr internalFieldCount)
  | isolate (action : Action) (isolate : Isolate) (hstep : world.isolate.step action =
      .ok isolate) :
      Transition world (.isolate action) { world with isolate }

variable {world} {next : World} {id : Nat} {global : Global}

theorem lt_length_of_global (hglobal : world.global id = some global) :
    id < world.globals.length :=
  lt_length_of_getD hglobal

theorem global_setGlobal_self {entry : Option Global} (hid : id < world.globals.length) :
    (world.setGlobal id entry).global id = entry :=
  getD_set_self hid

theorem global_setGlobal_of_ne {entry : Option Global} {other : Nat} (hne : id ≠ other) :
    (world.setGlobal id entry).global other = world.global other :=
  getD_set_of_ne hne

theorem global_construct_of_lt {other : Nat} (hlt : other < world.globals.length) :
    (world.construct global).global other = world.global other :=
  List.getD_append _ _ _ _ hlt

theorem global_construct_length :
    (world.construct global).global world.globals.length = some global :=
  getD_concat_length

@[simp] theorem giveUp_globals : (world.giveUp global).globals = world.globals := by
  unfold giveUp
  split <;> rfl

theorem setUserData_globals (value : JSValue) (callback parameter : Nat) :
    (world.setUserData value callback parameter).globals = world.globals := by
  unfold World.setUserData
  split <;> rfl

theorem setUserData_resets (value : JSValue) (callback parameter : Nat) :
    (world.setUserData value callback parameter).resets = world.resets := by
  unfold World.setUserData
  split <;> rfl

@[simp] theorem giveUp_resets : (world.giveUp global).resets = world.resets := by
  unfold giveUp
  split <;> rfl

theorem global_giveUp (other : Global) : (world.giveUp other).global id = world.global id := by
  rw [World.global, giveUp_globals, World.global]

theorem Proceeds.exists_global {cont : ResetCont} (hproceeds : Proceeds world id cont next) :
    ∃ global, world.global id = some global := by
  cases hproceeds with
  | reset global hglobal => exact ⟨global, hglobal⟩
  | resetTo global handle value hglobal => exact ⟨global, hglobal⟩
  | moveAssignEmpty global source rhs hglobal => exact ⟨global, hglobal⟩
  | moveAssign global source rhs hne hglobal => exact ⟨global, hglobal⟩
  | destroy global hglobal => exact ⟨global, hglobal⟩

section Entrywise

variable (holds : Nat → Global → Prop)

variable (world) in
/-- The predicate holds of every object at its address. -/
def Entrywise : Prop := ∀ id global, world.global id = some global → holds id global

variable {holds}

theorem entrywise_new : World.new.Entrywise holds := by
  intro id global hglobal
  simp [World.new, World.global] at hglobal

theorem Entrywise.congr {other : World} (hall : world.Entrywise holds)
    (hglobals : other.globals = world.globals) : other.Entrywise holds := by
  intro id global hglobal
  rw [World.global, hglobals] at hglobal
  exact hall id global hglobal

theorem Entrywise.setGlobal {entry : Option Global} (hall : world.Entrywise holds)
    (hentry : ∀ global, entry = some global → holds id global) :
    (world.setGlobal id entry).Entrywise holds := by
  intro other global hglobal
  rcases getD_set_cases hglobal with ⟨rfl, hwritten⟩ | hbefore
  · exact hentry global hwritten
  · exact hall other global hbefore

theorem Entrywise.construct (hall : world.Entrywise holds)
    (hentry : holds world.globals.length global) : (world.construct global).Entrywise holds := by
  intro other found hglobal
  rcases getD_concat_cases hglobal with ⟨rfl, ⟨⟩⟩ | hbefore
  · exact hentry
  · exact hall other found hbefore

variable (holds) in
/-- What the entries that the operations write must satisfy. They write values that are
live then. -/
structure EntryRules (rt : Runtime) : Prop where
  empty : ∀ id, holds id .empty
  strong : ∀ id value, rt.Live value → holds id (.strong id value)
  released : ∀ id global, global.store.hasRefCount = true → holds id global →
    holds id { global with released := true }
  cleared : ∀ id global, holds id global → holds id (Global.cleared global)
  weakened : ∀ id global callback parameter, global.isStrong = true → holds id global →
    holds id (global.weakened callback parameter)
  takeOver : ∀ id global target, global.val = some (.store id) → holds id global →
    holds target (.takeOver target global global.store)
  movedFrom : ∀ id global, holds id global → holds id (Global.movedFrom global)

theorem Entrywise.proceeds {cont : ResetCont} (hall : world.Entrywise holds)
    (hrules : EntryRules holds next.isolate.runtime) (hproceeds : Proceeds world id cont next) :
    next.Entrywise holds := by
  cases hproceeds with
  | reset global hglobal =>
      refine hall.setGlobal ?_
      rintro _ ⟨⟩
      exact hrules.cleared id global (hall id global hglobal)
  | resetTo global handle value hglobal hderef hlive =>
      have hinc : (world.incRef value).Entrywise holds := hall.congr rfl
      refine hinc.setGlobal ?_
      rintro _ ⟨⟩
      exact hrules.strong id value hlive
  | moveAssignEmpty global source rhs hglobal =>
      refine hall.setGlobal ?_
      rintro _ ⟨⟩
      exact hrules.cleared id global (hall id global hglobal)
  | moveAssign global source rhs hne hglobal hrhs hval =>
      have htarget : (world.setGlobal id
          (some (.takeOver id rhs rhs.store))).Entrywise holds := by
        refine hall.setGlobal ?_
        rintro _ ⟨⟩
        exact hrules.takeOver source rhs id hval (hall source rhs hrhs)
      refine htarget.setGlobal ?_
      rintro _ ⟨⟩
      exact hrules.movedFrom source rhs (hall source rhs hrhs)
  | destroy global hglobal => exact hall.setGlobal (by simp)

/-- Every step keeps a predicate of the objects that the rules hold for. -/
theorem Entrywise.transition {action : WorldAction} (hall : world.Entrywise holds)
    (hrules : EntryRules holds next.isolate.runtime) (hnext : Transition world action next) :
    next.Entrywise holds := by
  cases hnext with
  | construct => exact hall.construct (hrules.empty _)
  | constructFrom handle value hderef hlive =>
      have hinc : (world.incRef value).Entrywise holds := hall.congr rfl
      exact hinc.construct (hrules.strong _ value hlive)
  | setWeak id global callback parameter hglobal hstrong =>
      refine (hall.setGlobal ?_).congr (setUserData_globals _ _ _)
      rintro _ ⟨⟩
      exact hrules.weakened id global callback parameter hstrong (hall id global hglobal)
  | setWeakIdle => exact hall
  | get => exact hall.congr rfl
  | moveConstructEmpty source other hglobal =>
      refine (hall.construct (hrules.empty _)).setGlobal ?_
      rintro _ ⟨⟩
      exact hrules.movedFrom source other (hall source other hglobal)
  | moveConstruct source other hglobal hval =>
      have htaken := hrules.takeOver source other world.globals.length hval
        (hall source other hglobal)
      refine (hall.construct htaken).setGlobal ?_
      rintro _ ⟨⟩
      exact hrules.movedFrom source other (hall source other hglobal)
  | moveAssignSelf => exact hall
  | suspend op id cont global hop hglobal hstrong hlast =>
      have hdec : (world.decRef global.store).Entrywise holds := hall.congr rfl
      refine (hdec.setGlobal ?_).congr rfl
      rintro _ ⟨⟩
      exact hrules.released id global (Runtime.hasRefCount_of_isLastReference hlast)
        (hall id global hglobal)
  | release op id cont global next hop hglobal hlast hproceeds =>
      exact (hall.congr giveUp_globals).proceeds hrules hproceeds
  | resume id cont rest next hresets hproceeds =>
      have hrest : World.Entrywise { world with resets := rest } holds := hall.congr rfl
      exact hrest.proceeds hrules hproceeds
  | newInstance => exact hall.congr rfl
  | isolate => exact hall.congr rfl

end Entrywise

/-- An object that points as it should. -/
def PointsAt (id : Nat) (global : Global) : Prop :=
  (global.val = none ∨ global.val = some (.store id)) ∧
    (global.isStrong = true → global.isolate = true)

theorem pointing_iff : world.Pointing ↔ world.Entrywise PointsAt :=
  ⟨fun hpointing id global hglobal =>
      ⟨hpointing.ownStore id global hglobal, hpointing.isolate id global hglobal⟩,
    fun hall =>
      ⟨fun id global hglobal => (hall id global hglobal).1,
        fun id global hglobal => (hall id global hglobal).2⟩⟩

theorem pointsAt_cleared (id : Nat) (global : Global) : PointsAt id global.cleared :=
  ⟨Or.inl rfl, fun hstrong => by simp [Global.cleared, Global.isStrong] at hstrong⟩

theorem pointsAt_rules (rt : Runtime) : EntryRules PointsAt rt where
  empty _ := ⟨Or.inl rfl, fun hstrong => by cases hstrong⟩
  strong _ _ _ := ⟨Or.inr rfl, fun _ => rfl⟩
  released _ _ _ hpoints := hpoints
  cleared id global _ := pointsAt_cleared id global
  weakened _ _ _ _ _ hpoints := ⟨hpoints.1, fun hstrong => by
    simp [Global.weakened, Global.isStrong] at hstrong⟩
  takeOver id global target hval hpoints := by
    refine ⟨Or.inr rfl, fun hstrong => hpoints.2 ?_⟩
    simpa [Global.takeOver, Global.isStrong, hval] using hstrong
  movedFrom _ _ hpoints := ⟨hpoints.1, fun hstrong => by
    simp [Global.movedFrom, Global.isStrong] at hstrong⟩

/-- A pointer of a well-pointing object leads to its `store_`. -/
theorem Pointing.valueOf (hpointing : world.Pointing) (hglobal : world.global id = some global)
    (hval : global.val.isSome = true) :
    global.val = some (.store id) ∧ global.val.bind world.valueOf = some global.store := by
  rcases hpointing.ownStore id global hglobal with hnone | hstore
  · rw [hnone] at hval
    cases hval
  · rw [hstore]
    refine ⟨rfl, ?_⟩
    simp only [Option.bind_some, World.valueOf, hglobal, Option.map_some]

theorem val_isSome_of_isStrong (hstrong : global.isStrong = true) :
    global.val.isSome = true := by
  simp only [Global.isStrong, Bool.and_eq_true] at hstrong
  exact hstrong.2

theorem Pointing.strongValue (hpointing : world.Pointing)
    (hglobal : world.global id = some global) (hstrong : global.isStrong = true) :
    world.strongValue global = .ok global.store := by
  simp only [World.strongValue, (hpointing.valueOf hglobal (val_isSome_of_isStrong hstrong)).2,
    hpointing.isolate id global hglobal hstrong, if_true]

theorem setGlobal_setGlobal (first second : Option Global) :
    (world.setGlobal id first).setGlobal id second = world.setGlobal id second := by
  simp only [setGlobal, List.set_set]

theorem setGlobal_incRef (first second : Option Global) (value : JSValue) :
    ((world.setGlobal id first).incRef value).setGlobal id second =
      (world.incRef value).setGlobal id second := by
  simp only [setGlobal, incRef, List.set_set]

theorem setGlobal_construct (first second : Global) :
    (world.construct first).setGlobal world.globals.length (some second) =
      world.construct second := by
  simp [setGlobal, construct]

/-- `Reset` to a value either succeeds, or the handle it was given is no good. -/
theorem setTo_cases {other : Option Local} (hstep : world.setTo id other = .ok next) :
    ∃ handle value, other = some handle ∧ world.isolate.deref handle = some value ∧
      world.isolate.runtime.Live value ∧
      next = (world.incRef value).setGlobal id (some (.strong id value)) := by
  unfold setTo at hstep
  cases other with
  | none => simp only [reduceCtorEq] at hstep
  | some handle =>
      cases hderef : world.isolate.deref handle with
      | none => simp only [hderef, reduceCtorEq] at hstep
      | some value =>
          simp only [hderef] at hstep
          split at hstep
          next hlive =>
            cases hstep
            exact ⟨handle, value, rfl, hderef, hlive, rfl⟩
          next => simp only [reduceCtorEq] at hstep

theorem Pointing.congr {other : World} (hpointing : world.Pointing)
    (hglobals : other.globals = world.globals) : other.Pointing :=
  pointing_iff.mpr ((pointing_iff.mp hpointing).congr hglobals)

theorem Pointing.cleared (hpointing : world.Pointing) (id : Nat) (global : Global) :
    (world.setGlobal id (some global.cleared)).Pointing := by
  refine pointing_iff.mpr ((pointing_iff.mp hpointing).setGlobal ?_)
  rintro _ ⟨⟩
  exact pointsAt_cleared id global

/-- Assigning from an object gives the target its value, or leaves the target. -/
theorem Pointing.assignFrom (hpointing : world.Pointing) {source : Nat} {rhs : Global}
    (hrhs : world.global source = some rhs) :
    world.assignFrom id source = .ok (if rhs.val.isSome then
      (world.setGlobal id (some (.takeOver id rhs rhs.store))).setGlobal source
        (some rhs.movedFrom) else world) := by
  simp only [World.assignFrom, hrhs]
  rcases hpointing.ownStore source rhs hrhs with hnone | hstore
  · simp [hnone]
  · have hsource : world.valueOf (.store source) = some rhs.store := by
      rw [World.valueOf, hrhs]
      rfl
    simp only [hstore, hsource, Option.isSome_some, if_true]

theorem Pointing.proceeds {cont : ResetCont} (hpointing : world.Pointing)
    (hstep : world.proceed id cont = .ok next) : Proceeds world id cont next := by
  unfold proceed at hstep
  cases hglobal : world.global id with
  | none => simp only [hglobal, reduceCtorEq] at hstep
  | some global =>
      simp only [hglobal] at hstep
      cases cont with
      | reset =>
          cases hstep
          exact .reset global hglobal
      | resetTo other =>
          obtain ⟨handle, value, rfl, hderef, hlive, rfl⟩ := setTo_cases hstep
          rw [setGlobal_incRef]
          exact .resetTo global handle value hglobal hderef hlive
      | moveAssign source =>
          simp only at hstep
          cases hrhs : (world.setGlobal id (some global.cleared)).global source with
          | none => simp only [World.assignFrom, hrhs, reduceCtorEq] at hstep
          | some rhs =>
              have hafter := hpointing.cleared id global
              rw [hafter.assignFrom hrhs, Except.ok.injEq] at hstep
              subst next
              rcases hafter.ownStore source rhs hrhs with hnone | hstore
              · simpa [hnone] using Proceeds.moveAssignEmpty global source rhs hglobal hrhs hnone
              · have hne : id ≠ source := by
                  rintro rfl
                  rw [global_setGlobal_self (lt_length_of_global hglobal),
                    Option.some.injEq] at hrhs
                  subst rhs
                  cases hstore
                rw [global_setGlobal_of_ne hne] at hrhs
                simpa [hstore, setGlobal_setGlobal] using
                  Proceeds.moveAssign global source rhs hne hglobal hrhs hstore
      | destroy =>
          simp only [setGlobal_setGlobal, Except.ok.injEq] at hstep
          subst next
          exact .destroy global hglobal

theorem cleared_empty : Global.empty.cleared = Global.empty := rfl

theorem constructFrom_eq (other : Option Local) :
    (world.construct .empty).reset world.globals.length .empty (.resetTo other) =
      (world.construct .empty).setTo world.globals.length other := by
  have hreset : (world.construct .empty).reset world.globals.length .empty (.resetTo other) =
      (world.construct .empty).proceed world.globals.length (.resetTo other) := rfl
  rw [hreset, proceed, global_construct_length]
  simp only [cleared_empty, setGlobal_construct]

theorem constructFrom_cases {other : Option Local}
    (hstep : (world.construct .empty).reset world.globals.length .empty (.resetTo other) =
      .ok next) :
    ∃ handle value, other = some handle ∧ world.isolate.deref handle = some value ∧
      world.isolate.runtime.Live value ∧
      next = (world.incRef value).construct (.strong world.globals.length value) := by
  rw [constructFrom_eq] at hstep
  obtain ⟨handle, value, hother, hderef, hlive, hnext⟩ := setTo_cases hstep
  refine ⟨handle, value, hother, hderef, hlive, ?_⟩
  have hconstruct : ((world.incRef value).construct .empty).setGlobal world.globals.length
      (some (.strong world.globals.length value)) = _ :=
    setGlobal_construct .empty (.strong world.globals.length value)
  rw [hnext]
  exact hconstruct

theorem Pointing.setWeak (hpointing : world.Pointing) (hglobal : world.global id = some global)
    (hstrong : global.isStrong = true) (callback parameter : Nat) :
    world.setWeak id global callback parameter =
      .ok (((world.setGlobal id (some (global.weakened callback parameter))).setUserData
        global.store callback parameter).decRef global.store) := by
  obtain ⟨hstore, hvalue⟩ := hpointing.valueOf hglobal (val_isSome_of_isStrong hstrong)
  have hself : (world.setGlobal id (some (global.weakened callback parameter))).global id =
      some (global.weakened callback parameter) :=
    global_setGlobal_self (lt_length_of_global hglobal)
  have hsame : ((world.setGlobal id (some (global.weakened callback parameter))).setUserData
      global.store callback parameter).global id = some (global.weakened callback parameter) := by
    unfold World.setUserData
    split
    · exact hself
    · exact hself
  have hset : global.val.bind ((world.setGlobal id (some
      (global.weakened callback parameter))).setUserData global.store callback
        parameter).valueOf = some global.store := by
    rw [hstore, Option.bind_some, World.valueOf, hsame]
    rfl
  simp only [World.setWeak, hstrong, if_true, hvalue, World.strongValue, hset,
    hpointing.isolate id global hglobal hstrong, Except.map]

/-- `Reset()` gives up what a strong object owns, and then goes on at once or when the
callbacks are done. -/
theorem Pointing.reset_cases {cont : ResetCont} (hpointing : world.Pointing)
    (hglobal : world.global id = some global) :
    world.reset id global cont =
      if global.isStrong && world.isolate.runtime.isLastReference global.store then
        .ok ((world.decRef global.store).suspend id global cont)
      else (world.giveUp global).proceed id cont := by
  cases hstrong : global.isStrong with
  | true =>
      simp only [World.reset, hstrong, if_true, hpointing.strongValue hglobal hstrong, giveUp,
        Bool.true_and]
  | false => simp only [World.reset, hstrong, Bool.false_eq_true, if_false, giveUp, Bool.false_and]

theorem Pointing.transition_of_reset {op : GlobalOp} {cont : ResetCont}
    (hpointing : world.Pointing) (hop : op.resets = some (id, cont))
    (hglobal : world.global id = some global)
    (hstep : world.reset id global cont = .ok next) : Transition world (.global op) next := by
  rw [hpointing.reset_cases hglobal] at hstep
  split at hstep
  next hlast =>
    cases hstep
    rw [Bool.and_eq_true] at hlast
    exact .suspend op id cont global hop hglobal hlast.1 hlast.2
  next hlast =>
    have hgiven : (world.giveUp global).Pointing := hpointing.congr giveUp_globals
    exact .release op id cont global next hop hglobal (Bool.not_eq_true _ ▸ hlast)
      (hgiven.proceeds hstep)

theorem Pointing.moveConstruct (hpointing : world.Pointing) {source : Nat} {other : Global}
    (hother : world.global source = some other) :
    world.moveConstruct source other =
      .ok ((world.construct (if other.val.isSome then
        .takeOver world.globals.length other other.store else .empty)).setGlobal source
          (some other.movedFrom)) := by
  rcases hpointing.ownStore source other hother with hnone | hstore
  · simp [World.moveConstruct, hnone]
  · have hsource : world.valueOf (.store source) = some other.store := by
      rw [World.valueOf, hother]
      rfl
    simp [World.moveConstruct, hstore, hsource]

theorem withGlobal_ok {op : Global → Except Fault World}
    (hstep : world.withGlobal id op = .ok next) :
    ∃ global, world.global id = some global ∧ op global = .ok next := by
  unfold World.withGlobal at hstep
  cases hglobal : world.global id with
  | none => simp only [hglobal, reduceCtorEq] at hstep
  | some global => exact ⟨global, rfl, by simpa only [hglobal] using hstep⟩

theorem transition_of_globalStep {op : GlobalOp} (hpointing : world.Pointing)
    (hstep : world.globalStep op = .ok next) : Transition world (.global op) next := by
  cases op with
  | construct =>
      cases hstep
      exact .construct
  | constructFrom other =>
      obtain ⟨handle, value, rfl, hderef, hlive, rfl⟩ := constructFrom_cases hstep
      exact .constructFrom handle value hderef hlive
  | reset id =>
      obtain ⟨global, hglobal, hop⟩ := withGlobal_ok hstep
      exact hpointing.transition_of_reset rfl hglobal hop
  | resetTo id other =>
      obtain ⟨global, hglobal, hop⟩ := withGlobal_ok hstep
      exact hpointing.transition_of_reset rfl hglobal hop
  | setWeak id callback parameter =>
      obtain ⟨global, hglobal, hop⟩ := withGlobal_ok hstep
      cases hstrong : global.isStrong with
      | true =>
          rw [hpointing.setWeak hglobal hstrong, Except.ok.injEq] at hop
          subst next
          exact .setWeak id global callback parameter hglobal hstrong
      | false =>
          simp only [World.setWeak, hstrong, Bool.false_eq_true, if_false, Except.ok.injEq] at hop
          subst next
          exact .setWeakIdle id global callback parameter hglobal hstrong
  | get id =>
      obtain ⟨global, hglobal, hop⟩ := withGlobal_ok hstep
      cases hval : global.val with
      | none => simp [World.get, hval, Except.map] at hop
      | some place =>
          obtain ⟨hstore, hvalue⟩ := hpointing.valueOf hglobal (by simp [hval])
          simp only [World.get, hvalue] at hop
          split at hop
          next hallocated =>
            cases hop
            exact .get id global hglobal hstore hallocated
          next => simp [Except.map] at hop
  | moveConstruct source =>
      obtain ⟨other, hother, hop⟩ := withGlobal_ok hstep
      rw [hpointing.moveConstruct hother, Except.ok.injEq] at hop
      subst next
      rcases hpointing.ownStore source other hother with hnone | hstore
      · simpa [hnone] using Transition.moveConstructEmpty source other hother hnone
      · simpa [hstore] using Transition.moveConstruct source other hother hstore
  | moveAssign target source =>
      obtain ⟨global, hglobal, hop⟩ := withGlobal_ok hstep
      obtain ⟨_, _, hop⟩ := withGlobal_ok hop
      by_cases hne : target = source
      · subst source
        simp only [if_true, Except.ok.injEq] at hop
        subst next
        exact .moveAssignSelf target global hglobal
      · simp only [if_neg hne] at hop
        exact hpointing.transition_of_reset (if_neg hne) hglobal hop
  | destroy id =>
      obtain ⟨global, hglobal, hop⟩ := withGlobal_ok hstep
      exact hpointing.transition_of_reset rfl hglobal hop

/-- Inversion of an accepted step. -/
theorem transition_of_step {action : WorldAction} (hpointing : world.Pointing)
    (hstep : world.step action = .ok next) : Transition world action next := by
  cases action with
  | global op => exact transition_of_globalStep hpointing hstep
  | resume =>
      simp only [World.step, World.resume] at hstep
      split at hstep
      · simp only [reduceCtorEq] at hstep
      next id cont rest hresets =>
        have hrest : World.Pointing { world with resets := rest } := hpointing.congr rfl
        exact .resume id cont rest next hresets (hrest.proceeds hstep)
  | newInstance ptr internalFieldCount =>
      simp only [World.step, World.newInstance] at hstep
      split at hstep
      next hunused =>
        cases hstep
        exact .newInstance ptr internalFieldCount hunused.2
      next => simp only [reduceCtorEq] at hstep
  | isolate action =>
      simp only [World.step] at hstep
      cases hisolate : world.isolate.step action with
      | error fault => simp [hisolate, Except.map] at hstep
      | ok isolate =>
          simp only [hisolate, Except.map, Except.ok.injEq] at hstep
          subst next
          exact .isolate action isolate hisolate

theorem Pointing.transition {action : WorldAction} (hpointing : world.Pointing)
    (hnext : Transition world action next) : next.Pointing :=
  pointing_iff.mpr ((pointing_iff.mp hpointing).transition (pointsAt_rules _) hnext)

end World

end QuickjsBackend
