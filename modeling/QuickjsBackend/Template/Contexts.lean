import QuickjsBackend.Template.Transition

/-! # Contexts that come and go

`GetFunction` keys its cache by the address of the context. Contexts are created
and deleted between the operations on templates; an address is free again once
its context is deleted, and a serial number tells the contexts that were there
apart. A context or a template is not deleted while a call of `GetFunction` in
progress uses it.
-/

namespace QuickjsBackend

open Foundation

structure Contexts where
  templates : Templates
  -- the serial number of the context at an address
  contexts : Nat → Option Nat
  created : Nat
  -- templates whose destructor has begun
  dying : List Nat
  -- proof-facing: the context a function was made for
  madeFor : JSValue → Option Nat
  -- proof-facing: template, context and function of each call that has returned
  returned : List (Nat × Nat × JSValue)

inductive ContextAction
  | newContext (address : Nat)
  | deleteContext (address : Nat)
  | template (action : TemplateAction)
  deriving DecidableEq, Repr

/-- The template whose destructor runs. -/
def TemplateAction.destroys : TemplateAction → Option Nat
  | .template (.freeCached id) => some id
  | .template (.destroy id) => some id
  | _ => none

namespace Templates

variable (templates : Templates)

/-- The function the action makes for a call of `GetFunction`, and the address of
the context. -/
def made (action : TemplateAction) : Option (JSValue × Nat) :=
  (templates.call action).bind fun (id, context, ptr) =>
    match templates.cached id context with
    | none => some (.ref .object ptr, context)
    | some _ => none

/-- What a call of `GetFunction` returns with the action: template, address of the
context, and function. -/
def answer (action : TemplateAction) : Option (Nat × Nat × JSValue) :=
  match templates.finishing action with
  | some activation => some (activation.template, activation.context, activation.func)
  | none =>
      (templates.call action).bind fun (id, context, _) =>
        (templates.cached id context).map fun func => (id, context, func)

end Templates

namespace Contexts

def new : Contexts where
  templates := .new
  contexts := fun _ => none
  created := 0
  dying := []
  madeFor := fun _ => none
  returned := []

variable (state : Contexts)

/-- A call is made for a context and on a template that are there, and neither
destructor runs in the middle of one. -/
def Allowed (action : TemplateAction) : Prop :=
  (∀ call ∈ state.templates.call action,
    (state.contexts call.2.1).isSome = true ∧ call.1 ∉ state.dying) ∧
  ∀ id ∈ action.destroys, ∀ activation ∈ state.templates.activations, activation.template ≠ id

instance (action : TemplateAction) : Decidable (state.Allowed action) :=
  inferInstanceAs (Decidable (_ ∧ _))

/-- The state after a step on templates, with the books. -/
def record (action : TemplateAction) (next : Templates) : Contexts where
  templates := next
  contexts := state.contexts
  created := state.created
  dying := action.destroys.toList ++ state.dying
  madeFor :=
    match state.templates.made action with
    | none => state.madeFor
    | some (func, address) => Function.update state.madeFor func (state.contexts address)
  returned :=
    match state.templates.answer action with
    | none => state.returned
    | some (id, address, func) =>
        (state.contexts address).toList.map (fun serial => (id, serial, func)) ++ state.returned

def step : StepFn Contexts ContextAction Fault := fun state action =>
  match action with
  | .newContext address =>
      if state.contexts address = none then
        .ok { state with
          contexts := Function.update state.contexts address (some state.created)
          created := state.created + 1 }
      else .error .misuse
  | .deleteContext address =>
      if (state.contexts address).isSome = true ∧
          ∀ activation ∈ state.templates.activations, activation.context ≠ address then
        .ok { state with contexts := Function.update state.contexts address none }
      else .error .misuse
  | .template action =>
      if state.Allowed action then
        (state.templates.step action).map (state.record action)
      else .error .misuse

end Contexts

end QuickjsBackend
