import QuickjsBackend.Template.Data

/-! # What a step on templates can do

Inversion of an accepted step. The two ways to come to a call of `GetFunction`,
from the embedder and from a call in progress, are told apart by the state the
call starts in.
-/

namespace QuickjsBackend

open Foundation

namespace FunctionTemplate

theorem onObject_cache (template : FunctionTemplate) (part : Part)
    (change : ObjectTemplate → ObjectTemplate) :
    (template.onObject part change).contextToFunction = template.contextToFunction := by
  cases part <;> rfl

theorem declare_cache (template : FunctionTemplate) (declaration : Declaration) :
    (template.declare declaration).contextToFunction = template.contextToFunction := by
  cases declaration with
  | set part name value => cases part <;> rfl
  | setAccessorProperty part name info => cases part <;> rfl
  | setInternalFieldCount part value => cases part <;> rfl
  | inherit parent => rfl

end FunctionTemplate

namespace Templates

variable (templates : Templates)

/-- The function a template has cached for the context at an address. -/
def cached (id context : Nat) : Option JSValue :=
  (templates.template id).bind fun template => template.contextToFunction.lookup context

/-- The call of `GetFunction` the action makes: template, context, and the address
of the function it makes if it makes one. -/
def call : TemplateAction → Option (Nat × Nat × Ptr)
  | .template (.getFunction id context ptr) => some (id, context, ptr)
  | .template (.resume _ ptr _) =>
      match templates.activations with
      | [] => none
      | activation :: _ =>
          match activation.todo with
          | .getFunction id :: _ => some (id, activation.context, ptr)
          | _ => none
  | _ => none

/-- The call of `GetFunction` that returns after having made its function. -/
def finishing : TemplateAction → Option Activation
  | .template (.resume _ _ _) =>
      match templates.activations with
      | [] => none
      | activation :: _ => if activation.todo = [] then some activation else none
  | _ => none

/-- The call in progress has its next task taken off. -/
def afterTask (activation : Activation) (todo : List Task) (rest : List Activation) : Templates :=
  { templates with activations := { activation with todo } :: rest }

/-- The action calls `GetFunction` in the state `base`. -/
inductive Calls : TemplateAction → Templates → Nat → Nat → Ptr → Prop
  | direct (id context : Nat) (ptr : Ptr) :
      Calls (.template (.getFunction id context ptr)) templates id context ptr
  | nested (name ptr setter : Ptr) (activation : Activation) (id : Nat) (todo : List Task)
      (rest : List Activation) (hactivations : templates.activations = activation :: rest)
      (htodo : activation.todo = .getFunction id :: todo) :
      Calls (.template (.resume name ptr setter)) (templates.afterTask activation todo rest) id
        activation.context ptr

inductive Transition : TemplateAction → Templates → Prop
  | newFunctionTemplate (callback : Nat) (data : Option Local) (value : JSValue) :
      Transition (.template (.newFunctionTemplate callback data))
        { templates with table := templates.table ++ [some (.new callback value)] }
  | declare (id : Nat) (declaration : Declaration) (template : FunctionTemplate)
      (htemplate : templates.template id = some template) :
      Transition (.template (.declare id declaration))
        (templates.setTemplate id (some (template.declare declaration)))
  | setAccessor (id : Nat) (part : Part) (name : String) (getter setter : Option Nat)
      (data : Option Local) (attributes : PropertyAttribute) (template : FunctionTemplate)
      (value : JSValue) (htemplate : templates.template id = some template) :
      Transition (.template (.setAccessor id part name getter setter data attributes))
        (templates.setTemplate id (some (template.onObject part fun object =>
          object.setAccessor name { getter, setter, data := value, attributes })))
  | hit (action : TemplateAction) (base : Templates) (id context : Nat) (ptr : Ptr)
      (func : JSValue) (hcalls : templates.Calls action base id context ptr)
      (hcached : templates.cached id context = some func)
      (hlive : templates.isolate.runtime.Live func) :
      Transition action { base with isolate := templates.isolate.copyToSlot func }
  | begin (action : TemplateAction) (base : Templates) (id context : Nat) (ptr : Ptr)
      (template : FunctionTemplate) (hcalls : templates.Calls action base id context ptr)
      (htemplate : templates.template id = some template)
      (hlookup : template.contextToFunction.lookup context = none)
      (hunused : templates.isolate.runtime.cell ptr = .unused)
      (hlive : ∀ value ∈ template.funcData, templates.isolate.runtime.Live value) :
      Transition action
        ((base.withFunction ptr template.funcData).begin id template context (.ref .object ptr))
  | finish (name ptr setter : Ptr) (activation : Activation) (rest : List Activation)
      (template : FunctionTemplate) (hactivations : templates.activations = activation :: rest)
      (htodo : activation.todo = [])
      (htemplate : templates.template activation.template = some template)
      (hlive : templates.isolate.runtime.Live activation.func) :
      Transition (.template (.resume name ptr setter))
        { templates with
          isolate := templates.isolate.copyToSlot activation.func
          table := templates.table.set activation.template (some { template with
            contextToFunction :=
              assign activation.context activation.func template.contextToFunction })
          activations := rest }
  | initAccessor (name ptr setter : Ptr) (activation : Activation) (accessor : String)
      (todo : List Task) (rest : List Activation) (info : AccessorInfo) (after next : Templates)
      (hactivations : templates.activations = activation :: rest)
      (htodo : activation.todo = .initAccessor accessor :: todo)
      (hunused : templates.isolate.runtime.cell name = .unused)
      (hgetter : ((templates.afterTask activation todo rest).withName name).newAccessorFunction
        ptr (info.getterData (.ref .string name)) = .ok after)
      (hsetter : after.newAccessorFunction setter (info.setterData (.ref .string name)) =
        .ok next) :
      Transition (.template (.resume name ptr setter)) next
  | callbackData (index : Nat) : Transition (.template (.callbackData index)) templates
  | freeFuncData (index : Nat) (function : CFunction) (value : JSValue) (rest : List JSValue)
      (hfunction : templates.functions[index]? = some function)
      (hfreed : templates.isolate.runtime.cell function.ptr = .freed)
      (hdata : function.funcData = value :: rest) :
      Transition (.template (.freeFuncData index))
        { templates.release value with
          functions := templates.functions.set index { function with funcData := rest } }
  | freeCached (id : Nat) (template : FunctionTemplate) (context : Nat) (func : JSValue)
      (rest : List (Nat × JSValue)) (htemplate : templates.template id = some template)
      (hcache : template.contextToFunction = (context, func) :: rest) :
      Transition (.template (.freeCached id))
        ((templates.release func).setTemplate id
          (some { template with contextToFunction := rest }))
  | destroy (id : Nat) (template : FunctionTemplate)
      (htemplate : templates.template id = some template)
      (hcache : template.contextToFunction = []) :
      Transition (.template (.destroy id)) (templates.setTemplate id none)
  | isolate (action : Action) (isolate : Isolate)
      (hstep : templates.isolate.step action = .ok isolate) :
      Transition (.isolate action) { templates with isolate }

variable {templates} {next base : Templates} {action : TemplateAction} {id context : Nat}
  {ptr : Ptr}

/-- A call starts in a state that differs in the calls in progress only. -/
theorem Calls.base_eq (hcalls : templates.Calls action base id context ptr) :
    base = { templates with activations := base.activations } := by
  cases hcalls <;> rfl

theorem Calls.call_eq (hcalls : templates.Calls action base id context ptr) :
    templates.call action = some (id, context, ptr) := by
  cases hcalls with
  | direct => rfl
  | nested name ptr setter activation id todo rest hactivations htodo =>
      simp only [call, hactivations, htodo]

theorem Calls.finishing_eq (hcalls : templates.Calls action base id context ptr) :
    templates.finishing action = none := by
  cases hcalls with
  | direct => rfl
  | nested name ptr setter activation id todo rest hactivations htodo =>
      simp [finishing, hactivations, htodo]

theorem newCFunctionData_ok {funcData : List JSValue}
    (hstep : templates.newCFunctionData ptr funcData = .ok next) :
    templates.isolate.runtime.cell ptr = .unused ∧
      (∀ value ∈ funcData, templates.isolate.runtime.Live value) ∧
        next = templates.withFunction ptr funcData := by
  unfold newCFunctionData at hstep
  split at hstep
  next hunused =>
    split at hstep
    next hlive => exact ⟨hunused, hlive, (Except.ok.inj hstep).symm⟩
    next => cases hstep
  next => cases hstep

/-- `GetFunction` hits the cache or begins to make a function. -/
theorem transition_of_getFunction (hcalls : templates.Calls action base id context ptr)
    (hstep : base.getFunction id context ptr = .ok next) : templates.Transition action next := by
  have hbase := hcalls.base_eq
  have htable : base.template id = templates.template id := by rw [hbase]; rfl
  have hisolate : base.isolate = templates.isolate := by rw [hbase]
  unfold getFunction at hstep
  rw [htable] at hstep
  split at hstep
  next => cases hstep
  next template htemplate =>
    split at hstep
    next func hlookup =>
      split at hstep
      next hlive =>
        cases hstep
        have hcached : templates.cached id context = some func := by
          rw [cached, htemplate, Option.bind_some, hlookup]
        rw [hisolate] at hlive ⊢
        exact .hit action base id context ptr func hcalls hcached hlive
      next => cases hstep
    next hlookup =>
      split at hstep
      next => cases hstep
      next after hafter =>
        cases hstep
        obtain ⟨hunused, hlive, rfl⟩ := newCFunctionData_ok hafter
        rw [hisolate] at hunused hlive
        exact .begin action base id context ptr template hcalls htemplate hlookup hunused hlive

theorem transition_of_resume {name setter : Ptr}
    (hstep : templates.resume name ptr setter = .ok next) :
    templates.Transition (.template (.resume name ptr setter)) next := by
  unfold resume at hstep
  split at hstep
  next => cases hstep
  next activation rest hactivations =>
    split at hstep
    next htodo =>
      unfold finish at hstep
      split at hstep
      next => cases hstep
      next template htemplate =>
        split at hstep
        next hlive =>
          cases hstep
          exact .finish name ptr setter activation rest template hactivations htodo htemplate hlive
        next => cases hstep
    next task todo htodo =>
      dsimp only at hstep
      cases task with
      | getFunction id =>
          exact transition_of_getFunction
            (.nested name ptr setter activation id todo rest hactivations htodo) hstep
      | initAccessor accessor =>
          dsimp only at hstep
          split at hstep
          next => cases hstep
          next info hinfo =>
            unfold initAccessor at hstep
            split at hstep
            next hunused =>
              split at hstep
              next => cases hstep
              next after hafter =>
                exact .initAccessor name ptr setter activation accessor todo rest info after next
                  hactivations htodo hunused hafter hstep
            next => cases hstep

theorem transition_of_step (hstep : templates.step action = .ok next) :
    templates.Transition action next := by
  cases action with
  | isolate action =>
      simp only [step] at hstep
      cases hisolate : templates.isolate.step action with
      | error fault => simp only [hisolate, Except.map, reduceCtorEq] at hstep
      | ok isolate =>
          simp only [hisolate, Except.map, Except.ok.injEq] at hstep
          subst next
          exact .isolate action isolate hisolate
  | template op =>
      cases op with
      | newFunctionTemplate callback data =>
          simp only [step, templateStep, newFunctionTemplate] at hstep
          split at hstep
          next => cases hstep
          next value _ =>
            cases hstep
            exact .newFunctionTemplate callback data value
      | declare id declaration =>
          simp only [step, templateStep, declare] at hstep
          split at hstep
          next => cases hstep
          next template htemplate =>
            cases hstep
            exact .declare id declaration template htemplate
      | setAccessor id part name getter setter data attributes =>
          simp only [step, templateStep] at hstep
          split at hstep
          next => cases hstep
          next template htemplate =>
            unfold setAccessor at hstep
            split at hstep
            next => cases hstep
            next value _ =>
              cases hstep
              exact .setAccessor id part name getter setter data attributes template value htemplate
      | getFunction id context ptr => exact transition_of_getFunction (.direct id context ptr) hstep
      | resume name ptr setter => exact transition_of_resume hstep
      | callbackData index =>
          simp only [step, templateStep, callbackData] at hstep
          split at hstep
          next => cases hstep
          next =>
            split at hstep
            next =>
              split at hstep
              next => cases hstep
              next =>
                split at hstep
                next =>
                  cases hstep
                  exact .callbackData index
                next => cases hstep
            next => cases hstep
      | freeFuncData index =>
          simp only [step, templateStep, freeFuncData] at hstep
          split at hstep
          next => cases hstep
          next function hfunction =>
            split at hstep
            next hfreed =>
              split at hstep
              next => cases hstep
              next value rest hdata =>
                cases hstep
                exact .freeFuncData index function value rest hfunction hfreed hdata
            next => cases hstep
      | freeCached id =>
          simp only [step, templateStep, freeCached] at hstep
          split at hstep
          next => cases hstep
          next template htemplate =>
            split at hstep
            next => cases hstep
            next context func rest hcache =>
              cases hstep
              exact .freeCached id template context func rest htemplate hcache
      | destroy id =>
          simp only [step, templateStep, destroy] at hstep
          split at hstep
          next => cases hstep
          next template htemplate =>
            split at hstep
            next hcache =>
              cases hstep
              exact .destroy id template htemplate hcache
            next => cases hstep

theorem kept_afterTask {activation : Activation} {todo : List Task} {rest : List Activation}
    (hactivations : templates.activations = activation :: rest) :
    (templates.afterTask activation todo rest).kept = templates.kept := by
  simp [kept, afterTask, hactivations]

theorem Calls.kept_eq (hcalls : templates.Calls action base id context ptr) :
    base.kept = templates.kept := by
  cases hcalls with
  | direct => rfl
  | nested name ptr setter activation id todo rest hactivations => exact kept_afterTask hactivations

theorem Calls.isolate_eq (hcalls : templates.Calls action base id context ptr) :
    base.isolate = templates.isolate := by
  rw [hcalls.base_eq]

theorem Calls.handled (hcalls : templates.Calls action base id context ptr)
    (hhandled : templates.Handled) : base.Handled :=
  hhandled.mono hcalls.isolate_eq (le_of_eq hcalls.kept_eq)

theorem handled_newAccessorFunction (hhandled : templates.Handled)
    {funcData : Option (List JSValue)}
    (hstep : templates.newAccessorFunction ptr funcData = .ok next) : next.Handled := by
  cases funcData with
  | none =>
      cases hstep
      exact hhandled
  | some values =>
      obtain ⟨hunused, hlive, rfl⟩ := newCFunctionData_ok hstep
      exact hhandled.withFunction hunused hlive

/-- What is kept is held after every accepted step. -/
theorem Handled.transition (hhandled : templates.Handled)
    (hnext : templates.Transition action next) : next.Handled := by
  cases hnext with
  | newFunctionTemplate callback data value => exact hhandled.newTemplate rfl
  | declare id declaration template htemplate =>
      exact hhandled.setTemplate htemplate (by rw [templateRefs, template.declare_cache])
  | setAccessor id part name getter setter data attributes template value htemplate =>
      exact hhandled.setTemplate htemplate (by rw [templateRefs, template.onObject_cache])
  | hit action base id context ptr func hcalls hcached hlive =>
      have hbase := hcalls.handled hhandled
      rw [hcalls.base_eq] at hbase ⊢
      exact hbase.copyToSlot hlive
  | begin action base id context ptr template hcalls htemplate hlookup hunused hlive =>
      have hbase := hcalls.handled hhandled
      rw [hcalls.base_eq] at hbase ⊢
      exact hbase.begin hunused hlive id template context
  | finish name ptr setter activation rest template hactivations htodo htemplate hlive =>
      apply ((sound_finish hhandled hactivations).extends_ok _ _).handled
      simp only [finish, htemplate, hlive, if_true]
  | initAccessor name ptr setter activation accessor todo rest info after next hactivations htodo
      hunused hgetter hsetter =>
      have hkept : (templates.afterTask activation todo rest).kept ≤ templates.kept := by
        simp [kept, afterTask, hactivations]
      have htask : (templates.afterTask activation todo rest).Handled := hhandled.mono rfl hkept
      exact handled_newAccessorFunction
        (handled_newAccessorFunction (htask.withName hunused) hgetter) hsetter
  | callbackData index => exact hhandled
  | freeFuncData index function value rest hfunction hfreed hdata =>
      have hstep : templates.freeFuncData index = .ok { templates.release value with
          functions := templates.functions.set index { function with funcData := rest } } := by
        simp only [freeFuncData, hfunction, hfreed, if_true, hdata]
      exact (effect_freeFuncData hhandled hstep).handled
  | freeCached id template context func rest htemplate hcache =>
      have hstep : templates.freeCached id = .ok ((templates.release func).setTemplate id
          (some { template with contextToFunction := rest })) := by
        simp only [freeCached, htemplate, hcache]
      exact (effect_freeCached hhandled hstep).handled
  | destroy id template htemplate hcache =>
      apply ((sound_destroy hhandled id).extends_ok _ _).handled
      simp only [destroy, htemplate, hcache, if_true]
  | isolate action isolate hstep => exact hhandled.isolateStep (Isolate.transition_of_step hstep)

end Templates

end QuickjsBackend
