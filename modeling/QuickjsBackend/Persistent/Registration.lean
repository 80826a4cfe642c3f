import QuickjsBackend.Engine.Finalizer
import QuickjsBackend.Persistent.Ownership

/-! # Registered callbacks

Which callbacks are due when a cell dies: one for each `Global` object that holds
it weakly, with the parameter of that object. Every step changes their multiset by
what it takes away and what it adds.
-/

namespace QuickjsBackend

open Foundation

/-- The registration an entry of the table has on the cell. -/
def dueFrom (ptr : Ptr) : Option Global → Multiset (Nat × Nat)
  | none => 0
  | some global => if global.store = .ref .object ptr then single global.registered else 0

namespace World

variable (world : World)

/-- Callbacks of the objects that hold the cell weakly, with their parameters. -/
def registrations (ptr : Ptr) : Multiset (Nat × Nat) :=
  span (dueFrom ptr) none world.globals 0 world.globals.length

/-- The registration an action takes away from the cell. -/
def dropped : WorldAction → Ptr → Multiset (Nat × Nat)
  | .global op, ptr =>
      match op.resets with
      | some (id, _) => dueFrom ptr (world.global id)
      | none => 0
  | .resume, ptr =>
      match world.resets with
      | (id, _) :: _ => dueFrom ptr (world.global id)
      | [] => 0
  | _, _ => 0

/-- The registration an action adds to the cell. -/
def added : WorldAction → Ptr → Multiset (Nat × Nat)
  | .global (.setWeak id callback parameter), ptr =>
      match world.global id with
      | none => 0
      | some global =>
          if global.isStrong = true ∧ global.store = .ref .object ptr then {(callback, parameter)}
          else 0
  | _, _ => 0

variable {world} {next : World} {id : Nat} {global : Global} {action : WorldAction} {ptr : Ptr}

theorem registrations_setGlobal (ptr : Ptr) (entry : Option Global)
    (hid : id < world.globals.length) :
    (world.setGlobal id entry).registrations ptr + dueFrom ptr (world.global id) =
      world.registrations ptr + dueFrom ptr entry := by
  simp only [registrations, setGlobal, List.length_set]
  exact span_set (Nat.zero_le id) hid hid

theorem registrations_construct (entry : Global) :
    (world.construct entry).registrations ptr =
      world.registrations ptr + dueFrom ptr (some entry) := by
  simp only [registrations, construct, List.length_append, List.length_singleton]
  exact span_append (Nat.zero_le _)

theorem registrations_congr {other : World} (hglobals : other.globals = world.globals) :
    other.registrations ptr = world.registrations ptr := by
  rw [registrations, hglobals, registrations]

theorem dueFrom_of_registered (hnone : global.registered = none) :
    dueFrom ptr (some global) = 0 := by
  simp [dueFrom, hnone, single]

theorem dueFrom_takeOver (target : Nat) :
    dueFrom ptr (some (.takeOver target global global.store)) = dueFrom ptr (some global) := rfl

/-- An entry that is replaced by one without a registration. -/
theorem registrations_forget {entry : Option Global} {between : World}
    (hglobal : world.global id = some global) (hbetween : between.globals = world.globals)
    (hentry : dueFrom ptr entry = 0) :
    (between.setGlobal id entry).registrations ptr + dueFrom ptr (world.global id) =
      world.registrations ptr := by
  have hid : id < between.globals.length := by
    rw [hbetween]
    exact lt_length_of_global hglobal
  have hset := registrations_setGlobal ptr entry hid
  rw [hentry, add_zero, registrations_congr hbetween, World.global, hbetween] at hset
  exact hset

/-- Only non-empty weak objects have a registration. -/
def RegisteredWeakly (_ : Nat) (global : Global) : Prop :=
  global.registered ≠ none → global.weak = true ∧ global.val ≠ none

theorem RegisteredWeakly.of_isStrong (hweakly : RegisteredWeakly id global)
    (hstrong : global.isStrong = true) : global.registered = none := by
  by_contra hregistered
  simp [Global.isStrong, (hweakly hregistered).1] at hstrong

theorem RegisteredWeakly.of_empty (hweakly : RegisteredWeakly id global)
    (hval : global.val = none) : global.registered = none := by
  by_contra hregistered
  exact (hweakly hregistered).2 hval

theorem added_setWeak (hglobal : world.global id = some global)
    (hstrong : global.isStrong = true) (callback parameter : Nat) :
    world.added (.global (.setWeak id callback parameter)) ptr =
      dueFrom ptr (some (global.weakened callback parameter)) := by
  by_cases hstore : global.store = .ref .object ptr
  · simp [added, hglobal, hstrong, dueFrom, Global.weakened, single, hstore]
  · simp [added, hglobal, dueFrom, Global.weakened, hstore]

/-- An entry that moves leaves nothing behind. -/
theorem registrations_move (ptr : Ptr) {between : World} {source : Nat} {rhs : Global}
    (hrhs : between.global source = some rhs) :
    (between.setGlobal source (some rhs.movedFrom)).registrations ptr + dueFrom ptr (some rhs) =
      between.registrations ptr := by
  have hset := registrations_setGlobal ptr (some rhs.movedFrom)
    (lt_length_of_global hrhs)
  have hmoved : dueFrom ptr (some rhs.movedFrom) = 0 := dueFrom_of_registered rfl
  rw [hrhs, hmoved, add_zero] at hset
  exact hset

/-- Behind `DecRef` an object loses its registration, and may take over another's. -/
theorem Proceeds.registrations {cont : ResetCont} (hproceeds : Proceeds world id cont next)
    (ptr : Ptr) :
    next.registrations ptr + dueFrom ptr (world.global id) = world.registrations ptr := by
  cases hproceeds with
  | reset global hglobal =>
      exact registrations_forget hglobal rfl (dueFrom_of_registered rfl)
  | resetTo global handle value hglobal =>
      have hglobals : (world.incRef value).globals = world.globals := rfl
      exact registrations_forget hglobal hglobals (dueFrom_of_registered rfl)
  | moveAssignEmpty global source rhs hglobal =>
      exact registrations_forget hglobal rfl (dueFrom_of_registered rfl)
  | moveAssign global source rhs hne hglobal hrhs =>
      have hset := registrations_setGlobal ptr (some (.takeOver id rhs rhs.store))
        (lt_length_of_global hglobal)
      have hsource : (world.setGlobal id (some (.takeOver id rhs rhs.store))).global source =
          some rhs := (global_setGlobal_of_ne hne).trans hrhs
      rw [dueFrom_takeOver, ← registrations_move ptr hsource, add_right_comm] at hset
      exact add_right_cancel hset
  | destroy global hglobal => exact registrations_forget hglobal rfl rfl

/-- The equation every step satisfies. -/
theorem registrations_transition (hweakly : world.Entrywise RegisteredWeakly)
    (hnext : Transition world action next) (ptr : Ptr) :
    next.registrations ptr + world.dropped action ptr =
      world.registrations ptr + world.added action ptr := by
  have hsame : next.registrations ptr = world.registrations ptr →
      world.dropped action ptr = 0 → world.added action ptr = 0 →
        next.registrations ptr + world.dropped action ptr =
          world.registrations ptr + world.added action ptr := by
    intro hregistrations hdropped hadded
    rw [hregistrations, hdropped, hadded]
  have hresets : ∀ {op : GlobalOp} {id : Nat} {cont : ResetCont},
      op.resets = some (id, cont) → world.dropped (.global op) ptr = dueFrom ptr (world.global id) ∧
        world.added (.global op) ptr = 0 := by
    intro op id cont hop
    refine ⟨by simp only [dropped, hop], ?_⟩
    cases op with
    | setWeak => cases hop
    | _ => rfl
  cases hnext with
  | construct =>
      refine hsame ?_ rfl rfl
      rw [registrations_construct, dueFrom_of_registered rfl, add_zero]
  | constructFrom handle value =>
      refine hsame ?_ rfl rfl
      rw [registrations_construct, dueFrom_of_registered rfl, add_zero]
      rfl
  | setWeak id global callback parameter hglobal hstrong =>
      have hset := registrations_setGlobal ptr (some (global.weakened callback parameter))
        (lt_length_of_global hglobal)
      rw [hglobal, dueFrom_of_registered ((hweakly id global hglobal).of_isStrong hstrong),
        add_zero] at hset
      rw [added_setWeak hglobal hstrong, ← hset, show world.dropped _ ptr = 0 from rfl, add_zero]
      exact registrations_congr (setUserData_globals _ _ _)
  | setWeakIdle id global callback parameter hglobal hstrong =>
      simp [dropped, GlobalOp.resets, added, hglobal, hstrong]
  | get id global => exact hsame rfl rfl rfl
  | moveConstructEmpty source other hglobal hval =>
      refine hsame ?_ rfl rfl
      have hsource : (world.construct .empty).global source = some other :=
        (global_construct_of_lt (lt_length_of_global hglobal)).trans hglobal
      have hmove := registrations_move ptr hsource
      have hnone := (hweakly source other hglobal).of_empty hval
      rw [dueFrom_of_registered hnone, add_zero, registrations_construct,
        dueFrom_of_registered rfl, add_zero] at hmove
      exact hmove
  | moveConstruct source other hglobal =>
      refine hsame ?_ rfl rfl
      have hlt := lt_length_of_global hglobal
      have hsource : (world.construct (.takeOver world.globals.length other other.store)).global
          source = some other := (global_construct_of_lt hlt).trans hglobal
      have hmove := registrations_move ptr hsource
      rw [registrations_construct, dueFrom_takeOver] at hmove
      exact add_right_cancel hmove
  | moveAssignSelf target => simp [dropped, GlobalOp.resets, added]
  | suspend op id cont global hop hglobal hstrong =>
      obtain ⟨hdropped, hadded⟩ := hresets hop
      have hnone : dueFrom ptr (some global) = 0 :=
        dueFrom_of_registered ((hweakly id global hglobal).of_isStrong hstrong)
      have hkept : (world.decRef global.store).global id = some global := hglobal
      have hset := registrations_setGlobal ptr (some { global with released := true })
        (lt_length_of_global hkept)
      rw [hkept, hnone,
        show dueFrom ptr (some { global with released := true }) =
          dueFrom ptr (some global) from rfl,
        hnone, add_zero, add_zero] at hset
      rw [hdropped, hadded, hglobal, hnone, add_zero, add_zero]
      exact hset
  | release op id cont global next hop hglobal hlast hproceeds =>
      obtain ⟨hdropped, hadded⟩ := hresets hop
      have hforget := hproceeds.registrations ptr
      rw [global_giveUp, registrations_congr giveUp_globals] at hforget
      rw [hdropped, hadded, add_zero]
      exact hforget
  | resume id cont rest next hresets hproceeds =>
      have hdropped : world.dropped .resume ptr = dueFrom ptr (world.global id) := by
        simp only [dropped, hresets]
      rw [hdropped, show world.added .resume ptr = 0 from rfl, add_zero]
      exact hproceeds.registrations ptr
  | newInstance => exact hsame rfl rfl rfl
  | isolate => exact hsame rfl rfl rfl

theorem registeredWeak_rules (rt : Runtime) : EntryRules RegisteredWeakly rt where
  empty _ hregistered := absurd rfl hregistered
  strong _ _ _ hregistered := absurd rfl hregistered
  released _ _ _ hweakly := hweakly
  cleared _ _ _ hregistered := absurd rfl hregistered
  weakened _ global _ _ hstrong _ _ := by
    refine ⟨rfl, fun hval => ?_⟩
    have hempty : global.val = none := hval
    simp [Global.isStrong, hempty] at hstrong
  takeOver _ _ _ _ hweakly hregistered := ⟨(hweakly hregistered).1, Option.some_ne_none _⟩
  movedFrom _ _ _ hregistered := absurd rfl hregistered

end World

end QuickjsBackend
