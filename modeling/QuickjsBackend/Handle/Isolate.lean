import QuickjsBackend.Engine.Runtime
import QuickjsBackend.Foundation.Run

/-! # Handle scopes of an isolate

Handles are slots of one growing vector; a scope remembers the position at
which it was opened and releases everything above it when it closes. The C++
stack is explicit: it holds the open scopes and the API calls that have
allocated a slot and not stored a result yet. A scope under destruction stays
on the stack with the progress of its destructor, so that the weak callbacks a
release runs are ordinary operations above it.
-/

namespace QuickjsBackend

/-- Where `~HandleScope` stands: not begun, in the loop of `ForeachAllocValue`
with the slots `[i, stop)` released, or past the release of `scope_value_`. -/
inductive ScopePhase
  | opened
  | exiting (i stop : Nat)
  | closing
  deriving DecidableEq, Repr

structure HandleScope where
  prevPos : Nat
  -- the address of the enclosing scope
  prevScope : Option Nat
  -- where escapes from the scopes directly inside are parked
  scopeValue : JSValue
  escapable : Bool
  phase : ScopePhase
  deriving DecidableEq, Repr

/-- An entry of the C++ stack: a scope, or an API call between `Alloc_` and the
store of its result. The address of an entry is the number of entries below. -/
inductive Frame
  | scope (handleScope : HandleScope)
  | slot (index : Nat)
  deriving DecidableEq, Repr

/-- What a `Local` points at: a slot, the `scope_value_` of a scope, or storage
outside the handle layer (`literal_values_`, the `store_` of a `Global`, the
fields and arguments of a callback info). -/
inductive Local
  | slot (index : Nat)
  | scopeValue (address : Nat)
  | outside (value : JSValue)
  deriving DecidableEq, Repr

structure Isolate where
  runtime : Runtime
  values : List JSValue
  valueAllocPos : Nat
  currentHandleScope : Option Nat
  -- the C++ stack, innermost entry first
  frames : List Frame
  exception : JSValue
  -- proof-facing: the references the engine and the other owners hold
  others : Ptr → Int

/-- The scope whose entry is at the address. -/
def scopeAt (address : Nat) : List Frame → Option HandleScope
  | [] => none
  | frame :: below =>
      if below.length = address then
        match frame with
        | .scope handleScope => some handleScope
        | .slot _ => none
      else scopeAt address below

/-- Overwrite the `scope_value_` of the scope at the address. -/
def setScopeValue (address : Nat) (value : JSValue) : List Frame → List Frame
  | [] => []
  | frame :: below =>
      if below.length = address then
        match frame with
        | .scope handleScope => .scope { handleScope with scopeValue := value } :: below
        | .slot index => .slot index :: below
      else frame :: setScopeValue address value below

namespace Isolate

def new : Isolate where
  runtime := .new
  values := []
  valueAllocPos := 0
  currentHandleScope := none
  frames := []
  exception := .undefined
  others := 0

variable (isolate : Isolate)

/-- What is left of the counts for the handle layer. -/
def held : Ptr → Int := isolate.runtime.refCount - isolate.others

/-- The value a `Local` denotes, `none` where it points at no storage. -/
def deref : Local → Option JSValue
  | .slot index => if index < isolate.valueAllocPos then isolate.values[index]? else none
  | .scopeValue address => (scopeAt address isolate.frames).map HandleScope.scopeValue
  | .outside value => some value

/-- `Alloc_`: the slot keeps whatever an earlier use left in it. -/
def alloc : Isolate :=
  { isolate with
    values := if isolate.valueAllocPos = isolate.values.length
      then isolate.values ++ [.undefined] else isolate.values
    valueAllocPos := isolate.valueAllocPos + 1
    frames := .slot isolate.valueAllocPos :: isolate.frames }

/-- The API call in progress stores the value an engine call returned. -/
def store (index : Nat) (below : List Frame) (value : JSValue) : Isolate :=
  { isolate with
    runtime := isolate.runtime.produce value
    values := isolate.values.set index value
    frames := below }

/-- A copy of a value in a fresh slot, and a reference for it. -/
def copyToSlot (value : JSValue) : Isolate :=
  let allocated := isolate.alloc
  { allocated with
    runtime := isolate.runtime.dupValueRT value
    values := allocated.values.set isolate.valueAllocPos value
    frames := isolate.frames }

def openScope (escapable : Bool) : Isolate :=
  { isolate with
    frames := .scope
      { prevPos := isolate.valueAllocPos
        prevScope := isolate.currentHandleScope
        scopeValue := .undefined
        escapable
        phase := .opened } :: isolate.frames
    currentHandleScope := some isolate.frames.length }

/-- `EscapeValue_`, with the reference `HandleScope::Escape_` takes. -/
def escapeValue (parent : Nat) (value : JSValue) : Isolate :=
  { isolate with
    runtime := isolate.runtime.dupValueRT value
    frames := setScopeValue parent value isolate.frames }

/-- `EscapableHandleScope::Escape` on the scope at the address. -/
def escape (address : Nat) (handle : Local) : Except Fault Isolate :=
  match scopeAt address isolate.frames with
  | none => .error .misuse
  | some handleScope =>
      if handleScope.escapable && handleScope.phase = .opened then
        match handleScope.prevScope with
        | none => .error .abort
        | some parent =>
            match isolate.deref handle with
            | none => .error .misuse
            | some value =>
                if isolate.runtime.Live value then .ok (isolate.escapeValue parent value)
                else .error .misuse
      else .error .misuse

/-- Release `scope_value_`, the last statement of `HandleScope::Exit`. -/
def releaseScopeValue (handleScope : HandleScope) (below : List Frame) : Isolate :=
  { isolate with
    runtime := isolate.runtime.freeValueRT handleScope.scopeValue
    frames := .scope { handleScope with phase := .closing } :: below }

/-- `HandleScope::Exit` up to the first iteration of its loop. -/
def beginExit (handleScope : HandleScope) (below : List Frame) : Isolate :=
  if handleScope.prevPos < isolate.valueAllocPos then
    { isolate with
      frames := .scope { handleScope with
        phase := .exiting isolate.valueAllocPos isolate.valueAllocPos } :: below }
  else isolate.releaseScopeValue handleScope below

/-- One iteration of the loop in `ForeachAllocValue`, releasing slot `index`. -/
def releaseSlot (handleScope : HandleScope) (index stop : Nat) (below : List Frame) : Isolate :=
  { isolate with
    runtime := isolate.runtime.freeValueRT (isolate.values.getD index .undefined)
    frames := .scope { handleScope with phase := .exiting index stop } :: below }

/-- The rest of `HandleScope::Exit` after its loop. -/
def finishExit (handleScope : HandleScope) (below : List Frame) : Isolate :=
  { isolate with valueAllocPos := handleScope.prevPos }.releaseScopeValue handleScope below

def closeScope (handleScope : HandleScope) (below : List Frame) : Isolate :=
  { isolate with
    currentHandleScope := handleScope.prevScope
    frames := below }

end Isolate

/-- What the handle layer does. The three middle steps of closing a scope are
separate, since each release can run weak callbacks. -/
inductive HandleOp
  | openScope (escapable : Bool)
  | alloc
  | store (value : JSValue)
  | escape (address : Nat) (handle : Local)
  | beginExit
  | releaseSlot
  | finishExit
  | closeScope
  deriving DecidableEq, Repr

/-- What the engine and the other owners of references do meanwhile: take a
reference, drop one of their own, condemn an object of a cycle the handle layer
does not hold, free a condemned one, or be done with freeing. -/
inductive EngineOp
  | produce (value : JSValue)
  | free (value : JSValue)
  | condemn (ptr : Ptr)
  | collect (ptr : Ptr)
  | endFree
  deriving DecidableEq, Repr

inductive Action
  | handle (op : HandleOp)
  | engine (op : EngineOp)
  deriving DecidableEq, Repr

namespace Isolate

/-- One operation of the handle layer. Scopes close in LIFO order, so the
operations of a destructor act on the entry on top of the stack. -/
def handleStep (isolate : Isolate) : HandleOp → Except Fault Isolate
  | .openScope escapable => .ok (isolate.openScope escapable)
  | .alloc => .ok isolate.alloc
  | .store value =>
      match isolate.frames with
      | .slot index :: below =>
          match value with
          | .ref kind ptr =>
              if isolate.runtime.cell ptr = .unused ∨ isolate.runtime.cell ptr = .live then
                .ok (isolate.store index below (.ref kind ptr))
              else .error .misuse
          | _ => .ok (isolate.store index below value)
      | _ => .error .misuse
  | .escape address handle => isolate.escape address handle
  | .beginExit =>
      match isolate.frames with
      | .scope handleScope :: below =>
          if handleScope.phase = .opened then .ok (isolate.beginExit handleScope below)
          else .error .misuse
      | _ => .error .misuse
  | .releaseSlot =>
      match isolate.frames with
      | .scope handleScope :: below =>
          match handleScope.phase with
          | .exiting i stop =>
              if handleScope.prevPos < i then
                .ok (isolate.releaseSlot handleScope (i - 1) stop below)
              else .error .misuse
          | _ => .error .misuse
      | _ => .error .misuse
  | .finishExit =>
      match isolate.frames with
      | .scope handleScope :: below =>
          match handleScope.phase with
          | .exiting i _ =>
              if handleScope.prevPos < i then .error .misuse
              else .ok (isolate.finishExit handleScope below)
          | _ => .error .misuse
      | _ => .error .misuse
  | .closeScope =>
      match isolate.frames with
      | .scope handleScope :: below =>
          if handleScope.phase = .closing then .ok (isolate.closeScope handleScope below)
          else .error .misuse
      | _ => .error .misuse

/-- One step of the engine. It never drops a reference of the handle layer; what
is condemned it frees without a look at the count. -/
def engineStep (isolate : Isolate) : EngineOp → Except Fault Isolate
  | .produce (.ref kind ptr) =>
      if isolate.runtime.cell ptr = .unused ∨ isolate.runtime.cell ptr = .live then
        .ok { isolate with
          runtime := isolate.runtime.produce (.ref kind ptr)
          others := isolate.others + (JSValue.ref kind ptr).refs }
      else .error .misuse
  | .free (.ref kind ptr) =>
      if (isolate.runtime.cell ptr).Allocated ∧ 0 < isolate.others ptr then
        .ok { isolate with
          runtime := isolate.runtime.freeValueRT (.ref kind ptr)
          others := isolate.others - (JSValue.ref kind ptr).refs }
      else .error .misuse
  | .produce _ | .free _ => .ok isolate
  | .condemn ptr =>
      if isolate.runtime.cell ptr = .live ∧ isolate.held ptr = 0 then
        .ok { isolate with runtime := isolate.runtime.condemnGarbage ptr }
      else .error .misuse
  | .collect ptr =>
      if isolate.runtime.cell ptr = .condemned then
        .ok { isolate with runtime := isolate.runtime.freeObject ptr }
      else .error .misuse
  | .endFree => .ok { isolate with runtime := { isolate.runtime with gcPhase := .none } }

def step : Foundation.StepFn Isolate Action Fault := fun isolate action =>
  match action with
  | .handle op => isolate.handleStep op
  | .engine op => isolate.engineStep op

/-- The function of a template without internal fields returns `this_` from a construct
call. Its caller owns what it gets, and no reference was taken for it. -/
def returnThis (isolate : Isolate) (value : JSValue) : Isolate :=
  { isolate with others := isolate.others + value.refs }

def returnStep : Foundation.StepFn Isolate JSValue Fault := fun isolate value =>
  if isolate.runtime.Live value then .ok (isolate.returnThis value) else .error .misuse

theorem eq_of_returnStep {isolate next : Isolate} {value : JSValue}
    (hstep : isolate.returnStep value = .ok next) :
    isolate.runtime.Live value ∧ next = isolate.returnThis value := by
  unfold returnStep at hstep
  split at hstep
  next hlive => exact ⟨hlive, (Except.ok.inj hstep).symm⟩
  next => simp only [reduceCtorEq] at hstep

section Held

variable {isolate next : Isolate} {refs : Ptr → Int}

/-- References are taken that are none of the others'. -/
theorem held_take (hcount : next.runtime.refCount = isolate.runtime.refCount + refs)
    (hothers : next.others = isolate.others) : next.held = isolate.held + refs := by
  rw [held, held, hcount, hothers, add_sub_right_comm]

/-- References are given back that are none of the others'. -/
theorem held_give (hcount : next.runtime.refCount = isolate.runtime.refCount - refs)
    (hothers : next.others = isolate.others) : next.held = isolate.held - refs := by
  rw [held, held, hcount, hothers, sub_right_comm]

/-- References come or go with their owner among the others. -/
theorem held_of_others (hcount : next.runtime.refCount = isolate.runtime.refCount + refs)
    (hothers : next.others = isolate.others + refs) : next.held = isolate.held := by
  rw [held, held, hcount, hothers, add_sub_add_right_eq_sub]

@[simp] theorem held_store (index : Nat) (below : List Frame) (value : JSValue) :
    (isolate.store index below value).held = isolate.held + value.refs :=
  held_take (Runtime.produce_refCount value) rfl

@[simp] theorem held_copyToSlot (value : JSValue) :
    (isolate.copyToSlot value).held = isolate.held + value.refs :=
  held_take (Runtime.dupValueRT_refCount value) rfl

@[simp] theorem held_escapeValue (parent : Nat) (value : JSValue) :
    (isolate.escapeValue parent value).held = isolate.held + value.refs :=
  held_take (Runtime.dupValueRT_refCount value) rfl

@[simp] theorem held_releaseScopeValue (handleScope : HandleScope) (below : List Frame) :
    (isolate.releaseScopeValue handleScope below).held =
      isolate.held - handleScope.scopeValue.refs :=
  held_give (Runtime.freeValueRT_refCount _) rfl

@[simp] theorem held_releaseSlot (handleScope : HandleScope) (index stop : Nat)
    (below : List Frame) : (isolate.releaseSlot handleScope index stop below).held =
      isolate.held - (isolate.values.getD index .undefined).refs :=
  held_give (Runtime.freeValueRT_refCount _) rfl

@[simp] theorem held_finishExit (handleScope : HandleScope) (below : List Frame) :
    (isolate.finishExit handleScope below).held = isolate.held - handleScope.scopeValue.refs :=
  held_give (Runtime.freeValueRT_refCount _) rfl

end Held

/-- A scope with an escapable scope inside that has created a handle. -/
def nested : List Action :=
  [.handle (.openScope false), .handle (.openScope true), .handle .alloc,
    .handle (.store (.ref .object 0))]

/-- The inner scope closes, a sibling opens and creates a handle of its own. -/
def sibling : List Action :=
  [.handle .beginExit, .handle .releaseSlot, .handle .finishExit, .handle .closeScope,
    .handle (.openScope true), .handle .alloc, .handle (.store (.ref .object 1))]

end Isolate

end QuickjsBackend
