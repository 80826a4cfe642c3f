import QuickjsBackend.Access.Conversion
import QuickjsBackend.Engine.Runtime
import QuickjsBackend.Foundation.Faulting
import QuickjsBackend.Scope.Frame

/-! # Operations that are given a context

Each takes a `Local<Context>`, and each should do its work in the `JSContext` of that
context, whatever isolate and context are current. Some ask for what is current all the
same; what each engine call was made in is kept along a run.
-/

namespace QuickjsBackend

open Foundation.Faulting

/-- What a context argument leads to, and the entry points of the engine in each
`JSContext`. -/
structure ContextWorld (State Contents : Type) where
  -- `Context::isolate_`
  isolateOf : Nat → Nat
  -- `Context::context_`
  jsContext : Nat → Nat
  engines : Nat → Engine State Contents
  numeric : Numeric

/-- A state, and the contexts in which engine calls were made to reach it. -/
structure Performed (State : Type) where
  state : State
  contexts : List Nat

abbrev Performing (State : Type) := Foundation.Faulting Fault (Performed State)

/-- A call of an operation on a receiver with a context. -/
inductive ContextCall
  | uint32Value
  | int32Value
  | numberValue
  | toNumber
  | toString
  | set (key value : JSValue)
  | setIndex (index : BitVec 32) (value : JSValue)
  | get (key : JSValue)
  | getIndex (index : BitVec 32)
  | hasOwnProperty (key : JSValue)
  | setPrototype (prototype : JSValue)
  | getOwnPropertyNames

/-- What the operations answer. -/
inductive ContextAnswer
  | integer (maybe : Option (BitVec 32))
  | access (result : AccessResult)
  deriving DecidableEq

namespace ContextWorld

variable {State Contents : Type} (w : ContextWorld State Contents) (ambient : Ambient)
  (context : Nat) (this : JSValue)

/-- `Isolate::current_->current_context_->context_`. -/
def currentContext : Except Fault Nat :=
  match ambient.current.bind ambient.context with
  | some current => .ok (w.jsContext current)
  | none => .error .nullDeref

/-- The value as the macros for tags see it: boxed, an external is a double. -/
def seen : JSValue → JSValue
  | .external address =>
      if w.numeric.nanBoxing then
        .float64 (NanBoxed.getFloat64 (NanBoxed.mkVal Tag.external (BitVec.ofNat 32 address)))
      else .external address
  | value => value

/-- `Value::IsNumber`. -/
def isNumber (value : JSValue) : Bool := (w.seen value).isNumber

/-- An engine call in a `JSContext`. -/
def call {α : Type} (ctx : Nat) (entry : Engine State Contents → State → α × State) :
    Performing State α :=
  fun performed =>
    let (answer, after) := entry (w.engines ctx) performed.state
    .ok (answer, ⟨after, performed.contexts ++ [ctx]⟩)

/-- `JS_ToFloat64`: only cells are converted by means of the context. -/
def toFloat64 (ctx : Nat) (value : JSValue) : Performing State (Int × BitVec 64) :=
  if value.hasRefCount then w.call ctx fun engine => engine.toFloat64 value
  else
    match w.numeric.toFloat64 (w.seen value) with
    | some d => pure (0, d)
    | none => pure (-1, Foundation.Double.nan)

/-- `Value::Uint32Value` and `Value::Int32Value`, up to the cast. -/
def integerValue (cast : BitVec 64 → BitVec 32) : Performing State (Option (BitVec 32)) := do
  let ctx ← w.currentContext ambient
  let (code, d) ← w.toFloat64 ctx this
  return if code = 0 then some (cast d) else none

/-- `Value::Uint32Value`. -/
def uint32Value : Performing State (Option (BitVec 32)) :=
  w.integerValue ambient this w.numeric.castUint32

/-- `Value::Int32Value`. -/
def int32Value : Performing State (Option (BitVec 32)) :=
  w.integerValue ambient this w.numeric.castInt32

/-- `Value::NumberValue`, by `Number::Value`. -/
def numberValue : Performing State AccessResult := do
  let ctx ← w.currentContext ambient
  let (_, d) ← w.toFloat64 ctx this
  return .number (some d)

/-- `Value::ToNumber`. `Number::New` reads the current context of the isolate. -/
def toNumber : Performing State AccessResult := do
  if w.isNumber this then return .handle (some this)
  let (code, d) ← w.toFloat64 (w.jsContext context) this
  if code = 0 then
    match ambient.context (w.isolateOf context) with
    | some _ => return .number (some d)
    | none => throw .nullDeref
  else return .number none

/-- `Value::ToString`. -/
def toString : Performing State AccessResult :=
  if this.isString then return .handle (some this)
  else do
    let str ← w.call (w.jsContext context) fun engine => engine.toString this
    return .handle (some str)

/-- `key->Uint32Value(context).ToChecked()`. -/
def keyIndex (key : JSValue) : Performing State (BitVec 32) := do
  match ← w.uint32Value ambient key with
  | some index => return index
  | none => throw .abort

/-- `Object::Set` with an index. -/
def setIndex (index : BitVec 32) (value : JSValue) : Performing State AccessResult := do
  let ok ← w.call (w.jsContext context) fun engine => engine.setPropertyUint32 this index value
  return .bool (some (ok != 0))

/-- `Object::Set` with a value as key. -/
def set (key value : JSValue) : Performing State AccessResult :=
  if w.isNumber key then do
    let index ← w.keyIndex ambient key
    w.setIndex context this index value
  else do
    let atom ← w.call (w.jsContext context) fun engine => engine.valueToAtom key
    let ok ← w.call (w.jsContext context) fun engine => engine.setProperty this atom value
    return .bool (some (ok != 0))

/-- `Object::Get` with an index. -/
def getIndex (index : BitVec 32) : Performing State AccessResult := do
  let ret ← w.call (w.jsContext context) fun engine => engine.getPropertyUint32 this index
  return .handle (some ret)

/-- `Object::Get` with a value as key. -/
def get (key : JSValue) : Performing State AccessResult :=
  if w.isNumber key then do
    let index ← w.keyIndex ambient key
    w.getIndex context this index
  else do
    let atom ← w.call (w.jsContext context) fun engine => engine.valueToAtom key
    let ret ← w.call (w.jsContext context) fun engine => engine.getProperty this atom
    return .handle (some ret)

/-- `Object::HasOwnProperty`. -/
def hasOwnProperty (key : JSValue) : Performing State AccessResult := do
  let atom ← w.call (w.jsContext context) fun engine => engine.valueToAtom key
  let ctx ← w.currentContext ambient
  let ret ← w.call ctx fun engine => engine.getOwnProperty this atom
  return .bool (if ret < 0 then none else some (ret != 0))

/-- `Object::SetPrototype`. -/
def setPrototype (prototype : JSValue) : Performing State AccessResult := do
  let ctx ← w.currentContext ambient
  let ret ← w.call ctx fun engine => engine.setPrototype this prototype
  return .bool (some (0 ≤ ret))

/-- `Object::GetOwnPropertyNames`. -/
def getOwnPropertyNames : Performing State AccessResult := do
  let properties ← w.call (w.jsContext context) fun engine => engine.getOwnPropertyNamesAsArray this
  return .handle (if properties.isException then none else some properties)

def perform : ContextCall → Performing State ContextAnswer
  | .uint32Value => .integer <$> w.uint32Value ambient this
  | .int32Value => .integer <$> w.int32Value ambient this
  | .numberValue => .access <$> w.numberValue ambient this
  | .toNumber => .access <$> w.toNumber ambient context this
  | .toString => .access <$> w.toString context this
  | .set key value => .access <$> w.set ambient context this key value
  | .setIndex index value => .access <$> w.setIndex context this index value
  | .get key => .access <$> w.get ambient context this key
  | .getIndex index => .access <$> w.getIndex context this index
  | .hasOwnProperty key => .access <$> w.hasOwnProperty ambient context this key
  | .setPrototype prototype => .access <$> w.setPrototype ambient this prototype
  | .getOwnPropertyNames => .access <$> w.getOwnPropertyNames context this

/-- The operation is performed, and in one `JSContext` alone. -/
def PerformedIn {α : Type} (ctx : Nat) (operation : Performing State α)
    (performed : Performed State) : Prop :=
  operation.Completes performed fun _ after => ∀ other ∈ after.contexts, other = ctx

/-- From both entries the operation is performed in the context of its argument, with one
answer and one effect. -/
def Honours (call : ContextCall) (first second : Ambient) (state : State) : Prop :=
  PerformedIn (w.jsContext context) (w.perform first context this call) ⟨state, []⟩ ∧
    w.perform first context this call ⟨state, []⟩ = w.perform second context this call ⟨state, []⟩

/-- Some isolate and context are current. -/
def Entered : Prop := ∃ ctx, w.currentContext ambient = .ok ctx

/-- What is current has the `JSContext` of the argument. -/
def Matches : Prop := w.currentContext ambient = .ok (w.jsContext context)

/-- `JS_ToFloat64` fails in the `JSContext` of the argument. -/
def Refuses (value : JSValue) (state : State) : Prop :=
  if value.hasRefCount then ((w.engines (w.jsContext context)).toFloat64 value state).1.1 ≠ 0
  else w.numeric.toFloat64 (w.seen value) = none

/-- What the operation needs of what is current. -/
def Suits (state : State) : ContextCall → Prop
  | .uint32Value | .int32Value | .numberValue =>
      if this.hasRefCount then w.Matches ambient context else w.Entered ambient
  | .toNumber =>
      w.isNumber this = true ∨ (ambient.context (w.isolateOf context)).isSome = true ∨
        w.Refuses context this state
  | .toString | .setIndex _ _ | .getIndex _ | .getOwnPropertyNames => True
  | .set key _ | .get key => w.isNumber key = true → w.Entered ambient
  | .hasOwnProperty _ | .setPrototype _ => w.Matches ambient context

variable {w ambient context this}

/-! ### What is current -/

theorem currentContext_of_not_entered (hnone : ¬w.Entered ambient) :
    w.currentContext ambient = .error .nullDeref := by
  unfold Entered currentContext at *
  cases hcurrent : ambient.current.bind ambient.context with
  | none => rfl
  | some current => simp [hcurrent] at hnone

theorem Matches.entered (hmatches : w.Matches ambient context) : w.Entered ambient :=
  ⟨_, hmatches⟩

/-! ### Numbers -/

theorem hasRefCount_of_isNumber {value : JSValue} (hnumber : w.isNumber value = true) :
    value.hasRefCount = false := by
  cases value with
  | ref kind ptr => simp [isNumber, seen, JSValue.isNumber] at hnumber
  | _ => rfl

theorem toFloat64_of_isNumber {value : JSValue} (hnumber : w.isNumber value = true) :
    ∃ d, w.numeric.toFloat64 (w.seen value) = some d := by
  unfold isNumber at hnumber
  cases hseen : w.seen value with
  | int i => exact ⟨_, rfl⟩
  | float64 bits => exact ⟨_, rfl⟩
  | _ => simp [hseen, JSValue.isNumber] at hnumber

theorem toFloat64_of_ref {ctx : Nat} {value : JSValue} (href : value.hasRefCount = true) :
    w.toFloat64 ctx value = w.call ctx fun engine => engine.toFloat64 value := by
  rw [toFloat64, if_pos href]

/-- The context matters only to the conversion of a cell. -/
theorem toFloat64_of_not_ref (ctx other : Nat) {value : JSValue}
    (href : value.hasRefCount = false) : w.toFloat64 ctx value = w.toFloat64 other value := by
  simp only [toFloat64, href, Bool.false_eq_true, if_false]

theorem toFloat64_of_some (ctx : Nat) {value : JSValue} {d : BitVec 64}
    (href : value.hasRefCount = false) (hd : w.numeric.toFloat64 (w.seen value) = some d) :
    w.toFloat64 ctx value = pure (0, d) := by
  simp only [toFloat64, href, hd, Bool.false_eq_true, if_false]

/-! ### A conversion that fails -/

theorem toFloat64_of_refuses {value : JSValue} {state : State}
    (hrefuses : w.Refuses context value state) :
    ∃ code d after, code ≠ 0 ∧
      w.toFloat64 (w.jsContext context) value ⟨state, []⟩ = .ok ((code, d), after) := by
  unfold Refuses at hrefuses
  split at hrefuses
  case isTrue href =>
    exact ⟨_, _, _, hrefuses, by rw [toFloat64_of_ref href]; rfl⟩
  case isFalse href =>
    refine ⟨-1, Foundation.Double.nan, ⟨state, []⟩, by decide, ?_⟩
    simp only [toFloat64, href, hrefuses, Bool.false_eq_true, if_false]
    rfl

theorem refuses_of_toFloat64 {value : JSValue} {state : State} {code : Int} {d : BitVec 64}
    {after : Performed State}
    (heq : w.toFloat64 (w.jsContext context) value ⟨state, []⟩ = .ok ((code, d), after))
    (hcode : code ≠ 0) : w.Refuses context value state := by
  unfold Refuses
  split
  case isTrue href =>
    rw [toFloat64_of_ref href] at heq
    injection heq with heq
    have hanswer : ((w.engines (w.jsContext context)).toFloat64 value state).1 = (code, d) :=
      congrArg Prod.fst heq
    rwa [hanswer]
  case isFalse href =>
    have href : value.hasRefCount = false := by simpa using href
    cases hd : w.numeric.toFloat64 (w.seen value) with
    | none => rfl
    | some number =>
        rw [toFloat64_of_some _ href hd] at heq
        cases heq
        exact absurd rfl hcode

/-! ### One context current -/

/-- What asks for the current context goes on with it. -/
theorem bind_currentContext {α : Type} {ctx : Nat} (hcurrent : w.currentContext ambient = .ok ctx)
    (next : Nat → Performing State α) :
    ((liftM (w.currentContext ambient) : Performing State Nat) >>= next) = next ctx := by
  rw [hcurrent]
  rfl

theorem bind_currentContext_error {α : Type} (hnone : ¬w.Entered ambient)
    (next : Nat → Performing State α) :
    ((liftM (w.currentContext ambient) : Performing State Nat) >>= next) =
      fun _ => .error .nullDeref := by
  rw [currentContext_of_not_entered hnone]
  rfl

/-- The argument's isolate and context are the current ones. -/
def home (w : ContextWorld State Contents) (context : Nat) : Ambient where
  current := some (w.isolateOf context)
  context _ := some context
  handleScope _ := none
  tryCatch _ := none

theorem matches_home : w.Matches (w.home context) context := rfl

/-- What `Uint32Value`, `Int32Value` and `NumberValue` have in common. -/
theorem conversion_eq_home {α : Type} (next : Int × BitVec 64 → Performing State α)
    (hsuits : if this.hasRefCount then w.Matches ambient context else w.Entered ambient) :
    ((liftM (w.currentContext ambient) : Performing State Nat) >>= fun ctx =>
        w.toFloat64 ctx this >>= next) =
      (liftM (w.currentContext (w.home context)) : Performing State Nat) >>= fun ctx =>
        w.toFloat64 ctx this >>= next := by
  rw [bind_currentContext matches_home]
  cases href : this.hasRefCount with
  | true =>
      rw [href, if_pos rfl] at hsuits
      rw [bind_currentContext hsuits]
  | false =>
      rw [href, if_neg Bool.false_ne_true] at hsuits
      obtain ⟨ctx, hctx⟩ := hsuits
      rw [bind_currentContext hctx, toFloat64_of_not_ref ctx (w.jsContext context) href]

/-- A number as key is converted whatever is current. -/
theorem keyIndex_of_isNumber {key : JSValue} {d : BitVec 64} (hnumber : w.isNumber key = true)
    (hd : w.numeric.toFloat64 (w.seen key) = some d) (hentered : w.Entered ambient) :
    (w.keyIndex ambient key : Performing State (BitVec 32)) = pure (w.numeric.castUint32 d) := by
  obtain ⟨ctx, hctx⟩ := hentered
  unfold keyIndex uint32Value integerValue
  rw [bind_currentContext hctx, toFloat64_of_some ctx (hasRefCount_of_isNumber hnumber) hd]
  rfl

theorem entered_of_keyIndex {key : JSValue} {performed : Performed State}
    {result : BitVec 32 × Performed State}
    (heq : w.keyIndex ambient key performed = .ok result) : w.Entered ambient := by
  by_contra hnone
  have herror : w.keyIndex ambient key performed = .error .nullDeref :=
    bind_of_error _ (congrFun (bind_currentContext_error hnone _) performed)
  rw [herror] at heq
  cases heq

theorem keyIndex_eq_home {key : JSValue} (hnumber : w.isNumber key = true)
    (hentered : w.Entered ambient) :
    (w.keyIndex ambient key : Performing State (BitVec 32)) = w.keyIndex (w.home context) key := by
  obtain ⟨d, hd⟩ := toFloat64_of_isNumber hnumber
  rw [keyIndex_of_isNumber hnumber hd hentered,
    keyIndex_of_isNumber hnumber hd (@matches_home _ _ w context).entered]

/-- `Number::New` finds a current context, or is not reached. -/
theorem toNumber_eq_home {state : State}
    (hsuits : w.Suits ambient context this state .toNumber) :
    w.toNumber ambient context this ⟨state, []⟩ =
      w.toNumber (w.home context) context this ⟨state, []⟩ := by
  unfold toNumber
  rcases hsuits with hnumber | hsome | hrefuses
  · simp only [hnumber, if_true]
  · obtain ⟨current, hcurrent⟩ := Option.isSome_iff_exists.mp hsome
    simp only [hcurrent, home]
  · obtain ⟨code, d, after, hcode, heq⟩ := toFloat64_of_refuses hrefuses
    split
    · rfl
    · exact (bind_of_ok _ heq).trans ((bind_of_ok _ heq).trans (by simp [hcode])).symm

/-- Whatever suits is done as from the argument's own context. -/
theorem perform_eq_home {state : State} {call : ContextCall}
    (hsuits : w.Suits ambient context this state call) :
    w.perform ambient context this call ⟨state, []⟩ =
      w.perform (w.home context) context this call ⟨state, []⟩ := by
  cases call with
  | uint32Value =>
      have heq : (w.uint32Value ambient this : Performing State (Option (BitVec 32))) =
          w.uint32Value (w.home context) this := conversion_eq_home _ hsuits
      simp only [perform, heq]
  | int32Value =>
      have heq : (w.int32Value ambient this : Performing State (Option (BitVec 32))) =
          w.int32Value (w.home context) this := conversion_eq_home _ hsuits
      simp only [perform, heq]
  | numberValue =>
      have heq : (w.numberValue ambient this : Performing State AccessResult) =
          w.numberValue (w.home context) this := conversion_eq_home _ hsuits
      simp only [perform, heq]
  | toNumber => exact map_of_eq _ (toNumber_eq_home hsuits)
  | set key value =>
      cases hnumber : w.isNumber key with
      | true =>
          have heq : (w.keyIndex ambient key : Performing State (BitVec 32)) =
              w.keyIndex (w.home context) key := keyIndex_eq_home hnumber (hsuits hnumber)
          simp only [perform, set, heq]
      | false => simp only [perform, set, hnumber, Bool.false_eq_true, if_false]
  | get key =>
      cases hnumber : w.isNumber key with
      | true =>
          have heq : (w.keyIndex ambient key : Performing State (BitVec 32)) =
              w.keyIndex (w.home context) key := keyIndex_eq_home hnumber (hsuits hnumber)
          simp only [perform, get, heq]
      | false => simp only [perform, get, hnumber, Bool.false_eq_true, if_false]
  | hasOwnProperty key =>
      simp only [perform, hasOwnProperty, bind_currentContext hsuits,
        bind_currentContext matches_home]
  | setPrototype prototype =>
      simp only [perform, setPrototype, bind_currentContext hsuits,
        bind_currentContext matches_home]
  | toString | setIndex | getIndex | getOwnPropertyNames => rfl

/-! ### The argument's own context -/

/-- However far a run has come, the operation goes on in one `JSContext`. -/
def Stays {α : Type} (ctx : Nat) (operation : Performing State α) : Prop :=
  ∀ performed, (∀ other ∈ performed.contexts, other = ctx) → PerformedIn ctx operation performed

theorem stays_pure {α : Type} (ctx : Nat) (answer : α) :
    Stays ctx (pure answer : Performing State α) :=
  fun _ hcontexts => completes_pure.mpr hcontexts

theorem Stays.bind {α β : Type} {ctx : Nat} {operation : Performing State α}
    {next : α → Performing State β} (hoperation : Stays ctx operation)
    (hnext : ∀ answer, Stays ctx (next answer)) : Stays ctx (operation >>= next) :=
  fun performed hcontexts => completes_bind.mpr <|
    (hoperation performed hcontexts).mono fun answer after hafter => hnext answer after hafter

theorem Stays.map {α β : Type} {ctx : Nat} {operation : Performing State α} (f : α → β)
    (hoperation : Stays ctx operation) : Stays ctx (f <$> operation) :=
  fun performed hcontexts => completes_map.mpr (hoperation performed hcontexts)

theorem stays_call {α : Type} (ctx : Nat) (entry : Engine State Contents → State → α × State) :
    Stays ctx (w.call ctx entry) := by
  intro performed hcontexts
  refine (completes_of_ok rfl).mpr fun other hmem => ?_
  rcases List.mem_append.mp hmem with hmem | hmem
  · exact hcontexts other hmem
  · exact List.mem_singleton.mp hmem

/-- One engine call and what is made of its answer. -/
theorem stays_answer {α β : Type} (ctx : Nat) (entry : Engine State Contents → State → α × State)
    (answer : α → β) : Stays ctx (w.call ctx entry >>= fun result => pure (answer result)) :=
  (stays_call ctx entry).bind fun result => stays_pure ctx (answer result)

theorem stays_toFloat64 (ctx : Nat) (value : JSValue) :
    Stays ctx (w.toFloat64 ctx value : Performing State (Int × BitVec 64)) := by
  unfold toFloat64
  split
  · exact stays_call ctx _
  · split <;> exact stays_pure ctx _

theorem stays_keyIndex_home {key : JSValue} (hnumber : w.isNumber key = true) (context ctx : Nat) :
    Stays ctx (w.keyIndex (w.home context) key : Performing State (BitVec 32)) := by
  obtain ⟨d, hd⟩ := toFloat64_of_isNumber hnumber
  rw [keyIndex_of_isNumber hnumber hd (@matches_home _ _ w context).entered]
  exact stays_pure ctx _

/-- A key is converted to an index or to an atom. -/
theorem stays_byKey_home {α : Type} {key : JSValue} {byIndex : BitVec 32 → Performing State α}
    {byAtom : Performing State α} (context ctx : Nat) (hindex : ∀ index, Stays ctx (byIndex index))
    (hatom : Stays ctx byAtom) :
    Stays ctx (if w.isNumber key then w.keyIndex (w.home context) key >>= byIndex else byAtom) := by
  split
  case isTrue hnumber => exact (stays_keyIndex_home hnumber context ctx).bind hindex
  case isFalse => exact hatom

theorem stays_perform_home (context : Nat) (this : JSValue) (call : ContextCall) :
    Stays (w.jsContext context)
      (w.perform (w.home context) context this call : Performing State ContextAnswer) := by
  have hconversion {α : Type} (next : Int × BitVec 64 → α) :
      Stays (w.jsContext context)
        ((liftM (w.currentContext (w.home context)) : Performing State Nat) >>= fun ctx =>
          w.toFloat64 ctx this >>= fun answer => pure (next answer)) := by
    rw [bind_currentContext matches_home]
    exact (stays_toFloat64 _ this).bind fun _ => stays_pure _ _
  cases call with
  | uint32Value => exact (hconversion _).map _
  | int32Value => exact (hconversion _).map _
  | numberValue => exact (hconversion _).map _
  | toNumber =>
      refine Stays.map _ ?_
      unfold toNumber
      split
      · exact stays_pure _ _
      · refine (stays_toFloat64 _ this).bind fun answer => ?_
        split
        split <;> exact stays_pure _ _
  | toString =>
      refine Stays.map _ ?_
      unfold toString
      split
      · exact stays_pure _ _
      · exact stays_answer _ _ _
  | set key value =>
      refine Stays.map _ (stays_byKey_home context _ (fun index => stays_answer _ _ _) ?_)
      exact (stays_call _ _).bind fun atom => stays_answer _ _ _
  | get key =>
      refine Stays.map _ (stays_byKey_home context _ (fun index => stays_answer _ _ _) ?_)
      exact (stays_call _ _).bind fun atom => stays_answer _ _ _
  | setIndex index value => exact (stays_answer _ _ _).map _
  | getIndex index => exact (stays_answer _ _ _).map _
  | getOwnPropertyNames => exact (stays_answer _ _ _).map _
  | hasOwnProperty key =>
      refine Stays.map _ ((stays_call _ _).bind fun atom => ?_)
      rw [bind_currentContext matches_home]
      exact stays_answer _ _ _
  | setPrototype prototype =>
      refine Stays.map _ ?_
      unfold setPrototype
      rw [bind_currentContext matches_home]
      exact stays_answer _ _ _

theorem performedIn_of_suits {state : State} {call : ContextCall}
    (hsuits : w.Suits ambient context this state call) :
    PerformedIn (w.jsContext context) (w.perform ambient context this call) ⟨state, []⟩ :=
  (completes_congr (perform_eq_home hsuits)).mpr
    (stays_perform_home context this call ⟨state, []⟩ (by simp))

/-! ### What a performed operation shows -/

namespace PerformedIn

variable {α β : Type} {ctx : Nat} {performed : Performed State}

theorem of_map {operation : Performing State α} {f : α → β}
    (hperformed : PerformedIn ctx (f <$> operation) performed) :
    PerformedIn ctx operation performed :=
  completes_map.mp hperformed

theorem of_bind {operation : Performing State α} {next : α → Performing State β}
    (hperformed : PerformedIn ctx (operation >>= next) performed) :
    ∃ answer after, operation performed = .ok (answer, after) ∧
      PerformedIn ctx (next answer) after :=
  completes_bind.mp hperformed

theorem entered {next : Nat → Performing State α}
    (hperformed : PerformedIn ctx
      ((liftM (w.currentContext ambient) : Performing State Nat) >>= next) performed) :
    w.Entered ambient := by
  by_contra hnone
  exact not_completes_of_error (congrFun (bind_currentContext_error hnone next) performed)
    hperformed

theorem matches_current {entry : Engine State Contents → State → β × State} {next : β → α}
    (hperformed : PerformedIn (w.jsContext context)
      ((liftM (w.currentContext ambient) : Performing State Nat) >>= fun ctx =>
        w.call ctx entry >>= fun answer => pure (next answer)) performed) :
    w.Matches ambient context := by
  obtain ⟨ctx, hctx⟩ := hperformed.entered
  rw [bind_currentContext hctx] at hperformed
  obtain ⟨answer, after, hcall, hrest⟩ := hperformed.of_bind
  cases hcall
  have hsame : ctx = w.jsContext context := completes_pure.mp hrest ctx (by simp)
  rw [Matches, hctx, hsame]

end PerformedIn

theorem suits_of_conversion {α : Type} {performed : Performed State}
    {next : Int × BitVec 64 → α}
    (hperformed : PerformedIn (w.jsContext context)
      ((liftM (w.currentContext ambient) : Performing State Nat) >>= fun ctx =>
        w.toFloat64 ctx this >>= fun answer => pure (next answer)) performed) :
    if this.hasRefCount then w.Matches ambient context else w.Entered ambient := by
  cases href : this.hasRefCount with
  | true =>
      simp only [toFloat64_of_ref href] at hperformed
      exact hperformed.matches_current
  | false => exact hperformed.entered

theorem suits_of_performedIn {state : State} {call : ContextCall}
    (hperformed : PerformedIn (w.jsContext context) (w.perform ambient context this call)
      ⟨state, []⟩) : w.Suits ambient context this state call := by
  cases call with
  | uint32Value => exact suits_of_conversion hperformed.of_map
  | int32Value => exact suits_of_conversion hperformed.of_map
  | numberValue => exact suits_of_conversion hperformed.of_map
  | toNumber =>
      have hnumber := hperformed.of_map
      unfold toNumber at hnumber
      split at hnumber
      case isTrue hseen => exact Or.inl hseen
      case isFalse =>
        obtain ⟨⟨code, d⟩, after, heq, hrest⟩ := hnumber.of_bind
        by_cases hcode : code = 0
        · refine Or.inr (Or.inl ?_)
          cases hcurrent : ambient.context (w.isolateOf context) with
          | some current => rfl
          | none =>
              simp only [hcode, hcurrent, if_true] at hrest
              exact absurd hrest completes_throw
        · exact Or.inr (Or.inr (refuses_of_toFloat64 heq hcode))
  | set key value =>
      intro hnumber
      have hset := hperformed.of_map
      rw [set, if_pos hnumber] at hset
      obtain ⟨_, _, hkey, -⟩ := hset.of_bind
      exact entered_of_keyIndex hkey
  | get key =>
      intro hnumber
      have hget := hperformed.of_map
      rw [get, if_pos hnumber] at hget
      obtain ⟨_, _, hkey, -⟩ := hget.of_bind
      exact entered_of_keyIndex hkey
  | hasOwnProperty key =>
      obtain ⟨_, _, _, hrest⟩ := hperformed.of_map.of_bind
      exact hrest.matches_current
  | setPrototype prototype => exact hperformed.of_map.matches_current
  | toString | setIndex | getIndex | getOwnPropertyNames => trivial

/-- An operation that takes a context does the same, and does it there, from any two
entries exactly when what is current suits it at both. -/
theorem honours_iff (w : ContextWorld State Contents) (context : Nat) (this : JSValue)
    (call : ContextCall) (first second : Ambient) (state : State) :
    w.Honours context this call first second state ↔
      w.Suits first context this state call ∧ w.Suits second context this state call := by
  constructor
  · rintro ⟨hfirst, heq⟩
    exact ⟨suits_of_performedIn hfirst,
      suits_of_performedIn ((completes_congr heq).mp hfirst)⟩
  · rintro ⟨hfirst, hsecond⟩
    exact ⟨performedIn_of_suits hfirst,
      (perform_eq_home hfirst).trans (perform_eq_home hsecond).symm⟩

/-- An engine in which every call succeeds. -/
def stillEngine : Engine Unit Unit where
  valueToAtom _ state := (1, state)
  setProperty _ _ _ state := (1, state)
  setPropertyUint32 _ _ _ state := (1, state)
  getProperty _ _ state := (.undefined, state)
  getPropertyUint32 _ _ state := (.undefined, state)
  getOwnPropertyNamesAsArray _ state := (.undefined, state)
  getOwnProperty _ _ state := (1, state)
  setPrototype _ _ state := (1, state)
  toString value state := (value, state)
  toFloat64 _ state := ((0, 0), state)
  mapGet _ _ state := (.undefined, state)
  mapSet _ _ _ state := (.undefined, state)
  mapDelete _ _ state := (.undefined, state)
  uint32Value _ := 0
  pending _ := none
  tryCatches _ := []
  contents _ _ := ()

/-- Two contexts of one isolate. -/
def twoContexts : ContextWorld Unit Unit where
  isolateOf _ := 0
  jsContext context := context
  engines _ := stillEngine
  numeric := ⟨false, fun _ => none, fun _ => 0, fun _ => 0, fun _ => 0⟩

/-- `HasOwnProperty` with the other context current asks the engine in that one. -/
theorem asks_the_current_context :
    ¬∀ (State Contents : Type) (w : ContextWorld State Contents) (context : Nat) (this : JSValue)
      (call : ContextCall) (first second : Ambient) (state : State),
      w.Honours context this call first second state := by
  intro honoured
  have hown := honoured Unit Unit twoContexts 0 (.ref .object 0) (.hasOwnProperty (.ref .string 1))
    (twoContexts.home 1) (twoContexts.home 0) ()
  have hsuits := suits_of_performedIn hown.1
  exact absurd hsuits (by simp [Suits, Matches, currentContext, home, twoContexts])

end ContextWorld

end QuickjsBackend
